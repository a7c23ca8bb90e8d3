import Flowgen.Proofs.SavedFiles

namespace Flowgen

/-!
# What saving leaves alone

Saving never faults: it says whether it went well.  It writes the file of the
workflow last, after credentials that were missing and the directory of the
language.  So a save that does not go well has changed no file that was there,
unless it has opened the file of the workflow and then broken off.  However
often code is saved, credentials that are there stay as they are.
-/

open Session

/-- A computation whose faults are all of the kind that handlers catch. -/
def Catchable (result : Except Fault α) : Prop :=
  ∀ fault, result = .error fault → fault.isUncatchable = false

namespace Catchable

theorem ok
    (value : α) :
    Catchable (.ok value) := by
  intro fault isFault
  cases isFault

theorem bind
    {first : Except Fault α}
    {next : α → Except Fault β}
    (start : Catchable first)
    (rest : ∀ value, Catchable (next value)) :
    Catchable (first >>= next) := by
  intro fault isFault
  cases first with
  | error other =>
      cases isFault
      exact start fault rfl
  | ok value =>
      exact rest value fault isFault

theorem get
    (value : Value)
    (name : String)
    (fallback : Value) :
    Catchable (value.get name fallback) := by
  intro fault isFault
  cases value <;> cases isFault <;> rfl

theorem fileName
    (name : Value) :
    Catchable (Naming.fileName name) := by
  intro fault isFault
  cases name <;> cases isFault <;> rfl

end Catchable

namespace FileTree

variable (tree : FileTree) (path : Path)

theorem catchable_locate : Catchable (tree.locate path) := by
  intro fault isFault
  unfold locate at isFault
  split at isFault
  · cases isFault
    rfl
  · split at isFault
    · cases isFault
      rfl
    · cases followed : tree.follow (tree.rootPlace path.root) path.parts with
      | error cause =>
          rw [followed] at isFault
          cases isFault
          rfl
      | ok place =>
          rw [followed] at isFault
          cases isFault

theorem catchable_find : Catchable (tree.find path) := by
  refine (tree.catchable_locate path).bind fun place => ?_
  split
  · exact .ok _
  · rintro _ ⟨⟩
    rfl

theorem catchable_has : Catchable (tree.has path) := by
  intro fault isFault
  unfold has at isFault
  split at isFault
  · cases isFault
  · rename_i found
    split at isFault
    · cases isFault
    · cases isFault
      exact tree.catchable_find path _ found

theorem catchable_read : Catchable (tree.read path) := by
  refine (tree.catchable_find path).bind fun entry => ?_
  cases entry with
  | directory =>
      rintro _ ⟨⟩
      rfl
  | file content =>
      exact .ok _

theorem catchable_write
    (content : Content) :
    Catchable (tree.write path content) := by
  refine (tree.catchable_locate path).bind fun place => ?_
  split
  · rintro _ ⟨⟩
    rfl
  · split
    · rintro _ ⟨⟩
      rfl
    · exact .ok _

theorem catchable_makeDirectory : Catchable (tree.makeDirectory path) := by
  refine (tree.catchable_locate path).bind fun place => ?_
  split
  · exact .ok _
  · rintro _ ⟨⟩
    rfl
  · split
    · exact .ok _
    · rintro _ ⟨⟩
      rfl

end FileTree

namespace Session

/-- A session whose faults are all of the kind that handlers catch. -/
def Ordinary (session : Session α) : Prop :=
  ∀ host : Host, Catchable (session.start host).1

namespace Ordinary

variable {session : Session α}

theorem pure
    (value : α) :
    Ordinary (Pure.pure value : Session α) :=
  fun _ => .ok value

theorem lift
    {result : Except Fault α}
    (catchable : Catchable result) :
    Ordinary (liftM result : Session α) :=
  fun host => by rwa [start_lift]

theorem bind
    {next : α → Session β}
    (first : Ordinary session)
    (rest : ∀ value, Ordinary (next value)) :
    Ordinary (session >>= next) := by
  intro host
  have start := first host
  rw [start_bind]
  rcases ended : session.start host with ⟨fault | value, between⟩
  · rintro _ ⟨⟩
    exact start fault (by rw [ended])
  · exact rest value between

theorem pathExists
    (path : Path) :
    Ordinary (Session.pathExists path) :=
  fun host => by
    rw [Template.start_pathExists]
    exact host.files.catchable_has path

theorem readFile
    (path : Path) :
    Ordinary (Session.readFile path) :=
  fun host => by
    rw [Template.start_readFile]
    exact host.files.catchable_read path

theorem changeFiles
    {change : FileTree → Except Fault FileTree}
    (catchable : ∀ files, Catchable (change files)) :
    Ordinary (Session.changeFiles change) := by
  intro host
  rw [start_changeFiles]
  have changed := catchable host.files
  split
  · exact .ok _
  · rename_i fault isFault
    rintro _ ⟨⟩
    exact changed fault isFault

theorem throw
    {fault : Fault}
    (catchable : fault.isUncatchable = false) :
    Ordinary (MonadExcept.throw fault : Session α) := by
  rintro host _ ⟨⟩
  exact catchable

theorem storeFile
    (path : Path)
    (content : Content) :
    Ordinary (Session.storeFile path content) :=
  bind (fun _ => .ok _) fun _ =>
    bind (changeFiles fun files => files.catchable_write path content) fun _ =>
      pure _

theorem writeFile
    (path : Path)
    (content : Content) :
    Ordinary (Session.writeFile path content) := by
  refine bind (storeFile path content) fun cause => ?_
  split
  · exact throw rfl
  · exact pure _

theorem openFile
    (path : Path) :
    Ordinary (Session.openFile path) :=
  changeFiles fun files => files.catchable_write path _

theorem makeDirectory
    (path : Path) :
    Ordinary (Session.makeDirectory path) :=
  changeFiles fun files => files.catchable_makeDirectory path

end Ordinary

/--
A session that handles its faults and has no others ends well, with its own
value or a handled one.
-/
theorem guarded_cases
    {session : Session α}
    {handler : Fault → Session α}
    (ordinary : Ordinary session)
    (host : Host) :
    (∃ value after, session.start host = (.ok value, after) ∧
        (guarded session handler).start host = (.ok value, after)) ∨
      ∃ fault between, session.start host = (.error fault, between) ∧
        (guarded session handler).start host =
          (handler fault).start between := by
  rw [start_guarded]
  rcases ended : session.start host with ⟨fault | value, between⟩
  · have catchable := ordinary host fault (by rw [ended])
    exact .inr ⟨fault, between, rfl, by simp [catchable]⟩
  · exact .inl ⟨value, between, rfl, rfl⟩

end Session

namespace Output

theorem ordinary_copyTemplate
    (template target : Path) :
    Ordinary (copyTemplate template target) := by
  unfold copyTemplate
  refine .bind (.pathExists _) fun isThere => ?_
  split
  · refine .bind (.bind (.readFile _) fun content =>
      .bind (.storeFile _ content) ?_) fun _ => .pure _
    intro cause
    split
    · exact .throw rfl
    · exact .pure _
  · exact .pure _

theorem ordinary_ensureCredentials
    (output : Output)
    (language : String) :
    Ordinary (output.ensureCredentials language) := by
  unfold ensureCredentials
  refine .bind (.pathExists _) fun isThere => ?_
  split
  · exact .pure _
  · refine .bind (ordinary_copyTemplate _ _) fun isCopied => ?_
    split
    · exact .pure _
    · split
      · exact .pure _
      · exact ordinary_copyTemplate _ _

theorem ordinary_workflowFile
    (output : Output)
    (workflow : Value)
    (language : String) :
    Ordinary (output.workflowFile workflow language) := by
  unfold workflowFile languageDirectory
  exact .bind (.bind (.makeDirectory _) fun _ => .pure _) fun directory =>
    .bind (.lift (.get workflow _ _)) fun name =>
      .bind (.lift (.fileName name)) fun fileName => .pure _

/-- The place of the credentials for a language. -/
def credentialsPlace (language : Language) : List String :=
  ["output", "credentials", "Credentials" ++ language.extension]

/-- The place of the code in a language for a workflow that goes by a text. -/
def codePlace (language : Language) (text : String) : List String :=
  ["output", language.code, workflowName language.code text]

variable {tree : FileTree} {place : Place} {language : Language}

theorem eq_credentialsPlace_of_locate
    (located : tree.locate (standard.credentialsFile language.code) =
      .ok place) :
    place = tree.below (credentialsPlace language) := by
  rw [standard_credentialsFile] at located
  exact FileTree.eq_below_of_locate (by cases language <;> decide) located

theorem eq_languagePlace_of_locate
    (located : tree.locate (standard.base.join language.code) = .ok place) :
    place = tree.below ["output", language.code] := by
  rw [standard_base_join] at located
  exact FileTree.eq_below_of_locate (by cases language <;> decide) located

theorem standard_workflowFile
    (language : Language)
    (text : String) :
    (standard.base.join language.code).join (workflowName language.code text) =
      ⟨"", codePlace language text⟩ := by
  rw [standard_base_join, Path.join_component _
    (isComponent_workflowName language.code text)]
  rfl

theorem up_not_mem_codePlace
    (language : Language)
    (text : String) :
    ".." ∉ codePlace language text := by
  have notUp := (isComponent_workflowName language.code text).notUp.symm
  unfold codePlace
  generalize workflowName language.code text = name at notUp ⊢
  cases language <;> simpa [Language.code] using notUp

theorem eq_codePlace_of_locate
    {text : String}
    (located : tree.locate ⟨"", codePlace language text⟩ = .ok place) :
    place = tree.below (codePlace language text) :=
  FileTree.eq_below_of_locate (up_not_mem_codePlace language text) located

theorem codePlace_ne_credentialsPlace
    (language other : Language)
    (text : String) :
    codePlace language text ≠ credentialsPlace other := by
  intro same
  have code : language.code = "credentials" :=
    (List.cons.inj (List.cons.inj same).2).1
  cases language <;> exact absurd code (by decide)

end Output

namespace Class.Generator

/-- What code gives to be written; what has no bytes gives nothing. -/
def Code.written : Code → Content
  | .text content => .text content
  | .ragged _ => .text ""
  | .other _ => .text ""

theorem ordinary_write
    (file : Path)
    (code : Code) :
    Ordinary (write file code) := by
  unfold write
  split
  · exact .writeFile _ _
  · exact .bind (.openFile _) fun _ => .throw rfl
  · exact .bind (.openFile _) fun _ => .throw rfl

theorem ordinary_storing
    (generator : Generator)
    (workflow : Value)
    (code : Code) :
    Ordinary (generator.storing workflow code) :=
  .bind (Output.ordinary_ensureCredentials _ _) fun _ =>
    .bind (Output.ordinary_workflowFile _ _ _) fun _ =>
    .bind (ordinary_write _ _) fun _ => .bind (fun _ => .ok _) fun _ => .pure _

/--
Code is written to a file that can be opened.  This goes well if it is a text
and the device takes all of it, and else leaves in the file what has arrived.
-/
theorem start_write
    (file : Path)
    (code : Code)
    (host : Host) :
    (∃ fault, (write file code).start host = (.error fault, host)) ∨
      ∃ files, host.files.write file code.written = .ok files ∧
        ((∃ fault, (write file code).start host =
            (.error fault, { host with files := files })) ∨
          host.files.deviceFault? file = none ∧
          (∃ content, code = .text content) ∧
            (write file code).start host =
              (.ok (), { host with files := files })) := by
  cases code with
  | text content =>
      rw [write, start_writeFile, Code.written]
      cases host.files.write file (.text content) with
      | error fault =>
          exact .inl ⟨fault, rfl⟩
      | ok files =>
          cases noFault : host.files.deviceFault? file with
          | some cause =>
              exact .inr ⟨files, rfl, .inl ⟨_, rfl⟩⟩
          | none =>
              exact .inr ⟨files, rfl, .inr ⟨rfl, ⟨content, rfl⟩, rfl⟩⟩
  | ragged content =>
      rw [write, start_bind, openFile, start_changeFiles, Code.written]
      cases host.files.write file (.text "") with
      | error fault =>
          exact .inl ⟨fault, rfl⟩
      | ok files =>
          exact .inr ⟨files, rfl, .inl ⟨_, rfl⟩⟩
  | other kind =>
      rw [write, start_bind, openFile, start_changeFiles, Code.written]
      cases host.files.write file (.text "") with
      | error fault =>
          exact .inl ⟨fault, rfl⟩
      | ok files =>
          exact .inr ⟨files, rfl, .inl ⟨_, rfl⟩⟩

/-- What may change before the file of a workflow is written. -/
def preparation (language : Language) (before : FileTree) : Permission where
  make names := names = ["output", language.code]
  write names :=
    names = Output.credentialsPlace language ∧ before.entry? names = none

variable {store : Template.Store} {language : Language} {workflow : Value}
  {code : Code}

theorem changes_ensureCredentials_standard
    (language : Language)
    (host : Host) :
    host.files.Changes (preparation language host.files)
      ((Output.standard.ensureCredentials language.code).start
        host).2.files := by
  obtain same | ⟨missing, content, files, written, ended⟩ :=
    Output.standard.ensureCredentials_cases language.code host
  · rw [same]
    exact .refl _ _
  · rw [ended]
    refine .of_write (fun place located => ?_) written
    have absent := FileTree.entryAt?_of_has missing located
    obtain rfl := Output.eq_credentialsPlace_of_locate located
    exact ⟨_, rfl, rfl, by rwa [FileTree.entryAt?_below] at absent⟩

/-- The file of a workflow is opened, and holds what has arrived of its code. -/
def Opens
    (language : Language)
    (workflow : Value)
    (code : Code)
    (prepared after : FileTree) : Prop :=
  ∃ text, workflow.get "name" (.text "workflow") = .ok (.text text) ∧
    prepared.entry? (Output.codePlace language text) ≠ some .directory ∧
    prepared.locked.contains (Output.codePlace language text) = false ∧
    after = prepared.set (Output.codePlace language text)
      (.file (prepared.arriving
        (prepared.below (Output.codePlace language text)) code.written))

theorem opens_of_write
    {prepared files : FileTree}
    {text : String}
    (named : workflow.get "name" (.text "workflow") = .ok (.text text))
    (wrote : prepared.write ⟨"", Output.codePlace language text⟩ code.written =
      .ok files) :
    Opens language workflow code prepared files := by
  obtain ⟨place, located, notDirectory, rfl⟩ := FileTree.write_eq_ok wrote
  obtain rfl := Output.eq_codePlace_of_locate located
  rw [FileTree.entryAt?_below] at notDirectory
  refine ⟨text, named, notDirectory, ?_, FileTree.setAt_below _ _ _⟩
  -- A locked place would have refused to be written.
  rw [FileTree.write, located] at wrote
  simp only [bind, Except.bind, FileTree.refuses, FileTree.namesTo?_below]
    at wrote
  split at wrote
  · cases wrote
  · rename_i unlocked
    exact Bool.eq_false_iff.mpr unlocked

/--
Storing prepares the files, and then opens the file of the workflow unless it
faults.  It goes well if all of the code arrives there.
-/
theorem storing_cases
    (store : Template.Store)
    (language : Language)
    (workflow : Value)
    (code : Code)
    (host : Host) :
    ∃ prepared after,
      host.files.Changes (preparation language host.files) prepared ∧
      ((∃ fault, (storing ⟨store, language.code, .standard⟩ workflow code).start
        host =
            (.error fault, after) ∧
          (after.files = prepared ∨
            Opens language workflow code prepared after.files)) ∨
        (storing ⟨store, language.code, .standard⟩ workflow code).start host =
            (.ok true, after) ∧
          ∃ text content, workflow.get "name" (.text "workflow") =
            .ok (.text text) ∧ code = .text content ∧
            prepared.entry? (Output.codePlace language text) ≠ some .directory ∧
            after.files = prepared.set (Output.codePlace language text)
              (.file (.text content))) := by
  have ensured := changes_ensureCredentials_standard language host
  dsimp only [storing]
  rw [start_bind]
  rcases ended :
    (Output.standard.ensureCredentials language.code).start host with
    ⟨fault | _, first⟩
  · rw [ended] at ensured
    exact ⟨first.files, first, ensured, .inl ⟨fault, rfl, .inl rfl⟩⟩
  rw [ended] at ensured
  have looked : first.files.Changes (preparation language host.files)
      ((Output.standard.workflowFile workflow language.code).start
        first).2.files :=
    Output.within_workflowFile (fun _ _ located =>
      ⟨_, Output.eq_languagePlace_of_locate located, rfl⟩) workflow first
  have prepared := ensured.trans looked
  dsimp only
  rw [start_bind]
  rcases found :
    (Output.standard.workflowFile workflow language.code).start first with
    ⟨fault | file, second⟩
  · rw [found] at prepared
    exact ⟨second.files, second, prepared, .inl ⟨fault, rfl, .inl rfl⟩⟩
  rw [found] at prepared
  obtain ⟨text, named, fileIs⟩ :=
    Output.returns_workflowFile .standard workflow language.code first second
      file found
  rw [Output.standard_workflowFile] at fileIs
  subst fileIs
  dsimp only
  rw [start_bind]
  obtain ⟨fault, ended⟩ | ⟨files, wrote,
    ⟨fault, ended⟩ | ⟨noFault, isText, ended⟩⟩ :=
    start_write ⟨"", Output.codePlace language text⟩ code second
  · rw [ended]
    exact ⟨second.files, second, prepared, .inl ⟨fault, rfl, .inl rfl⟩⟩
  · rw [ended]
    exact ⟨second.files, _, prepared,
      .inl ⟨fault, rfl, .inr (opens_of_write named wrote)⟩⟩
  · obtain ⟨content, rfl⟩ := isText
    obtain ⟨place, located, notDirectory, filesAre⟩ :=
      FileTree.write_eq_ok wrote
    rw [FileTree.arriving_of_deviceFault? located noFault] at filesAre
    obtain rfl := Output.eq_codePlace_of_locate located
    rw [FileTree.entryAt?_below] at notDirectory
    rw [FileTree.setAt_below] at filesAre
    rw [ended]
    exact ⟨second.files, _, prepared,
      .inr ⟨rfl, text, content, named, rfl, notDirectory, filesAre⟩⟩

/--
Saving prepares the files and then writes the one of the workflow.  It says
that it went well if and only if that file holds all of the code.
-/
theorem save_cases
    (store : Template.Store)
    (language : Language)
    (workflow : Value)
    (code : Code)
    (host : Host) :
    ∃ isSaved prepared after,
      (save ⟨store, language.code, .standard⟩ workflow code).start host =
        (.ok isSaved, after) ∧
      host.files.Changes (preparation language host.files) prepared ∧
      (isSaved = false ∧
          (after.files = prepared ∨
            Opens language workflow code prepared after.files) ∨
        isSaved = true ∧ ∃ text content,
          workflow.get "name" (.text "workflow") = .ok (.text text) ∧
          code = .text content ∧
          prepared.entry? (Output.codePlace language text) ≠ some .directory ∧
          after.files = prepared.set (Output.codePlace language text)
            (.file (.text content))) := by
  obtain ⟨prepared, after, changes, stored⟩ :=
    storing_cases store language workflow code host
  rw [save]
  obtain ⟨value, ended, isStored, saved⟩ | ⟨fault, between, isFault, saved⟩ :=
    @guarded_cases _ _ reportUnsaved
      (ordinary_storing ⟨store, language.code, .standard⟩ workflow code) host
  · obtain ⟨fault, isFault, _⟩ | ⟨isTrue, written⟩ := stored
    · rw [isStored] at isFault
      cases isFault
    · rw [isStored, Prod.mk.injEq, Except.ok.injEq] at isTrue
      obtain ⟨rfl, rfl⟩ := isTrue
      exact ⟨true, prepared, ended, saved, changes, .inr ⟨rfl, written⟩⟩
  · obtain ⟨other, alsoFault, leaves⟩ | ⟨isTrue, _⟩ := stored
    · rw [isFault, Prod.mk.injEq] at alsoFault
      obtain ⟨_, rfl⟩ := alsoFault
      exact ⟨false, prepared, _, saved, changes, .inl ⟨rfl, leaves⟩⟩
    · rw [isFault] at isTrue
      cases isTrue

end Class.Generator

/-- A call that saves the code of a workflow in a language. -/
structure SaveCall where
  store : Template.Store
  language : Language
  workflow : Value
  code : Class.Generator.Code

namespace SaveCall

open Class.Generator

/-- What a call does. -/
def session (call : SaveCall) : Session Bool :=
  save ⟨call.store, call.language.code, .standard⟩ call.workflow call.code

/-- The surroundings after calls, one after the other. -/
def run (calls : List SaveCall) (host : Host) : Host :=
  calls.foldl (fun host call => (call.session.start host).2) host

/-- The place of the file that a call should write. -/
def IsTarget (call : SaveCall) (names : List String) : Prop :=
  ∃ text, call.workflow.get "name" (.text "workflow") = .ok (.text text) ∧
    names = Output.codePlace call.language text

/-- What a call may change: its own file, and credentials that are not there. -/
def permission (call : SaveCall) (before : FileTree) : Permission where
  make names := names = ["output", call.language.code]
  write names := call.IsTarget names ∨
    names = Output.credentialsPlace call.language ∧ before.entry? names = none

/--
The file of a call after it was opened: it holds what the device has taken.
-/
structure BrokenOff
    (call : SaveCall)
    (before after : FileTree)
    (names : List String) : Prop where
  isTarget : call.IsTarget names
  unlocked : before.locked.contains names = false
  left : after.entry? names =
    some (.file (before.arriving (before.below names) call.code.written))

/-- Credentials that are there are no place that a call may write. -/
theorem credentials_of_changes
    {call : SaveCall}
    {before after : FileTree}
    {language : Language}
    {content : Content}
    (changes : before.Changes (call.permission before) after)
    (isThere : before.entry? (Output.credentialsPlace language) =
      some (.file content)) :
    after.entry? (Output.credentialsPlace language) = some (.file content) := by
  have change := changes.entries (Output.credentialsPlace language)
  rw [isThere] at change
  generalize after.entry? (Output.credentialsPlace language) = entry at change
  cases change with
  | same =>
      rfl
  | written may _ _ =>
      obtain ⟨text, _, isTarget⟩ | ⟨_, absent⟩ := may
      · exact absurd isTarget.symm (Output.codePlace_ne_credentialsPlace _ _ _)
      · rw [isThere] at absent
        cases absent

/-- What is there stays as it is while the files are prepared. -/
theorem entry?_of_preparation
    {language : Language}
    {before prepared : FileTree}
    {names : List String}
    {entry : Entry}
    (changes : before.Changes (preparation language before) prepared)
    (isThere : before.entry? names = some entry) :
    prepared.entry? names = some entry := by
  have change := changes.entries names
  rw [isThere] at change
  generalize prepared.entry? names = other at change
  cases change with
  | same =>
      rfl
  | written may _ _ =>
      have absent := may.2
      rw [isThere] at absent
      cases absent

/-- One call: what it says, what it may have changed, and what it has kept. -/
theorem start_session
    (call : SaveCall)
    (host : Host) :
    ∃ isSaved after, call.session.start host = (.ok isSaved, after) ∧
      host.files.Changes (call.permission host.files) after.files ∧
      (isSaved = true → ∃ names content, call.IsTarget names ∧
        call.code = .text content ∧
        after.files.entry? names = some (.file (.text content))) ∧
      (isSaved = false → ∀ names content,
        host.files.entry? names = some (.file content) →
          after.files.entry? names = some (.file content) ∨
            call.BrokenOff host.files after.files names) := by
  obtain ⟨isSaved, prepared, after, saved, changes, outcome⟩ :=
    save_cases call.store call.language call.workflow call.code host
  have prepares : host.files.Changes (call.permission host.files) prepared := by
    refine changes.mono (fun _ may => ?_) (fun _ may => ?_)
    · exact may
    · exact .inr may
  have writes : ∀ text content,
      call.workflow.get "name" (.text "workflow") = .ok (.text text) →
      prepared.entry? (Output.codePlace call.language text) ≠ some .directory →
      host.files.Changes (call.permission host.files)
        (prepared.set (Output.codePlace call.language text)
          (.file content)) := by
    intro text content named notDirectory
    have mayWrite : (call.permission host.files).write
        (Output.codePlace call.language text) := .inl ⟨text, named, rfl⟩
    exact prepares.trans (.of_set
      (FileTree.ne_nil_of_not_directory notDirectory)
      (.written mayWrite notDirectory _))
  refine ⟨isSaved, after, saved, ?_⟩
  obtain ⟨rfl, rfl | opens⟩ | ⟨rfl, text, content, named, isText, notDirectory,
    filesAre⟩ :=
    outcome
  · exact ⟨prepares, by simp, fun _ _ _ isThere =>
      .inl (entry?_of_preparation changes isThere)⟩
  · obtain ⟨text, named, notDirectory, unlocked, filesAre⟩ := opens
    rw [filesAre]
    refine ⟨writes text _ named notDirectory, by simp,
      fun _ names content isThere => ?_⟩
    rw [FileTree.entry?_set (FileTree.ne_nil_of_not_directory notDirectory)]
    split
    · rename_i isTarget
      subst isTarget
      refine .inr ⟨⟨text, named, rfl⟩, ?_, ?_⟩
      · rwa [changes.around] at unlocked
      · rw [FileTree.entry?_set (FileTree.ne_nil_of_not_directory notDirectory),
          if_pos rfl, changes.around.below_eq, changes.around.arriving_eq]
    · exact .inl (entry?_of_preparation changes isThere)
  · rw [filesAre]
    refine ⟨writes text _ named notDirectory,
      fun _ => ⟨_, content, ⟨text, named, rfl⟩, isText, ?_⟩, by simp⟩
    rw [FileTree.entry?_set (FileTree.ne_nil_of_not_directory notDirectory),
      if_pos rfl]

/-- Credentials that are there are the same after any calls. -/
theorem credentials_run
    (calls : List SaveCall)
    {host : Host}
    {language : Language}
    {content : Content}
    (isThere : host.files.entry? (Output.credentialsPlace language) =
      some (.file content)) :
    FileTree.entry? (run calls host).files (Output.credentialsPlace language) =
      some (.file content) := by
  induction calls generalizing host with
  | nil =>
      exact isThere
  | cons call calls inductionHypothesis =>
      obtain ⟨_, after, saved, changes, _⟩ := call.start_session host
      have kept := credentials_of_changes changes isThere
      rw [run, List.foldl_cons, saved]
      exact inductionHypothesis kept

/--
Each call in a sequence says whether it went well.  It changes no file but its
own, and the credentials of its language if they were not there.  If it went
well then its file holds the code.  Otherwise every file is as it was, but for
its own if that was opened: then it holds what the device has taken.
Credentials that are there before a call are the same after all the calls.
-/
theorem run_keeps_files
    (host : Host)
    (earlier later : List SaveCall)
    (call : SaveCall) :
    ∃ isSaved after, call.session.start (run earlier host) =
      (.ok isSaved, after) ∧
      (run earlier host).files.Changes
        (call.permission (run earlier host).files) after.files ∧
      (isSaved = true → ∃ names content, call.IsTarget names ∧
        call.code = .text content ∧
        after.files.entry? names = some (.file (.text content))) ∧
      (isSaved = false → ∀ names content,
        FileTree.entry? (run earlier host).files names = some (.file content) →
          after.files.entry? names = some (.file content) ∨
            call.BrokenOff (run earlier host).files after.files names) ∧
      ∀ language content,
        FileTree.entry? (run earlier host).files
          (Output.credentialsPlace language) = some (.file content) →
        FileTree.entry? (run (earlier ++ call :: later) host).files
            (Output.credentialsPlace language) =
          some (.file content) := by
  obtain ⟨isSaved, after, saved, changes, written, kept⟩ :=
    call.start_session (run earlier host)
  refine ⟨isSaved, after, saved, changes, written, kept,
    fun language content isThere => ?_⟩
  have split : run (earlier ++ call :: later) host =
      run (call :: later) (run earlier host) :=
    List.foldl_append
  rw [split]
  exact credentials_run _ isThere

/-- A call with code whose second character is half of a pair. -/
def raggedCall : SaveCall :=
  ⟨.standard, .php, .object [("name", .text "A")], .ragged ⟨"a", 0, []⟩⟩

/-- A call with other code for the same workflow. -/
def plainCall : SaveCall :=
  ⟨.standard, .php, .object [("name", .text "A")], .text "old"⟩

/--
A call with a text that has no bytes says that it did not go well, and yet its
file has lost what an earlier call wrote to it.
-/
theorem raggedCall_empties_file :
    (raggedCall.session.start (run [plainCall] preparedHost)).1 = .ok false ∧
    raggedCall.IsTarget ["output", "php", "A.php"] ∧
    FileTree.entry? (run [plainCall] preparedHost).files
      ["output", "php", "A.php"] = some (.file (.text "old")) ∧
    FileTree.entry? (run [plainCall, raggedCall] preparedHost).files
      ["output", "php", "A.php"] = some (.file (.text "")) := by
  refine ⟨eq_ok_of_toOption (by decide +kernel), ⟨"A", rfl, ?_⟩, ?_, ?_⟩
  · decide +kernel
  · decide +kernel
  · decide +kernel

end SaveCall

end Flowgen
