import Flowgen.Proofs.OutputTrees

namespace Flowgen

/-!
# The steps of a conversion

Making the output directory, making sure of credentials, and saving code, each
as a function on file trees.  Whatever the steps do, the tree has only grown
after them.
-/

open Session

namespace FileTree

variable {tree : FileTree} {names : List String}

theorem locate_output
    (tree : FileTree) :
    tree.locate Output.standard.base = .ok (tree.below ["output"]) := by
  rw [Output.standard_base]
  refine locate_below rfl (by decide) (by decide) (by decide)
    (fun front isFront => ?_) (by decide)
  obtain rfl := List.prefix_nil.mp isFront
  rfl

theorem locate_in_output
    {name : String}
    (isOutput : tree.entry? ["output"] = some .directory)
    (isFine : name ∈ ["credentials", "php", "python", "javascript"]) :
    tree.locate ⟨"", ["output", name]⟩ = .ok (tree.below ["output", name]) := by
  have fine : ∀ name ∈ ["credentials", "php", "python", "javascript"],
      (["output", name].any (fun part => part.toList.contains '\x00') = false ∧
        (⟨"", ["output", name]⟩ : Path).text.utf8ByteSize ≤ pathLimit) ∧
      ∀ part ∈ ["output", name], part ≠ ".." ∧
      part.utf8ByteSize ≤ nameLimit := by
    decide
  obtain ⟨⟨noNull, short⟩, fits⟩ := fine name isFine
  refine locate_below rfl noNull short fits (fun front isFront => ?_) (by simp)
  have isFront : front <+: ["output"] := isFront
  rcases List.prefix_cons_iff.mp isFront with rfl | ⟨rest, rfl, isRest⟩
  · rfl
  · obtain rfl := List.prefix_nil.mp isRest
    exact isOutput

theorem Ready.locate_languagePlace
    (ready : tree.Ready)
    (language : Language) :
    tree.locate (Output.standard.base.join language.code) =
      .ok (tree.below (Output.languagePlace language)) := by
  rw [Output.standard_base_join]
  exact locate_in_output ready.output (by cases language <;> decide)

theorem Ready.locate_in_credentials
    {name : String}
    (ready : tree.Ready)
    (noNull : ["output", "credentials", name].any
      (fun part => part.toList.contains '\x00') = false)
    (short : (⟨"", ["output", "credentials", name]⟩ : Path).text.utf8ByteSize ≤
      pathLimit)
    (fits : ∀ part ∈ ["output", "credentials", name],
      part ≠ ".." ∧ part.utf8ByteSize ≤ nameLimit) :
    tree.locate ⟨"", ["output", "credentials", name]⟩ =
      .ok (tree.below ["output", "credentials", name]) := by
  refine locate_below rfl noNull short fits (fun front isFront => ?_) (by simp)
  have isFront : front <+: ["output", "credentials"] := isFront
  rcases List.prefix_cons_iff.mp isFront with rfl | ⟨rest, rfl, isRest⟩
  · rfl
  · rcases List.prefix_cons_iff.mp isRest with rfl | ⟨last, rfl, isLast⟩
    · exact ready.output
    · obtain rfl := List.prefix_nil.mp isLast
      exact ready.credentials

theorem Ready.locate_credentialsPlace
    (ready : tree.Ready)
    (language : Language) :
    tree.locate (Output.standard.credentialsFile language.code) =
      .ok (tree.below (Output.credentialsPlace language)) := by
  rw [Output.standard_credentialsFile]
  exact ready.locate_in_credentials (by cases language <;> decide)
    (by cases language <;> decide) (by cases language <;> decide)

end FileTree

namespace Session

/-- A session that lets every tree that is ready only grow. -/
def Grows (done : Value → Language → Prop) (session : Session α) : Prop :=
  ∀ (order : SetOrder) (tree : FileTree), tree.Ready →
    tree.Grown done (session.among order tree).2

namespace Grows

variable {done : Value → Language → Prop} {session : Session α}

theorem reports
    (reports : Reports session) :
    Grows done session := by
  intro order tree _
  rw [reports.among_files]
  exact .refl done tree

theorem bind
    {next : α → Session β}
    (isLocal : Local session)
    (localNext : ∀ value, Local (next value))
    (first : Grows done session)
    (rest : ∀ order tree value after,
      session.among order tree = (.ok value, after) → Grows done (next value)) :
    Grows done (session >>= next) := by
  intro order tree ready
  have grown := first order tree ready
  rw [among_bind isLocal localNext]
  rcases ended : session.among order tree with ⟨fault | value, between⟩
  · rw [ended] at grown
    exact grown
  · rw [ended] at grown
    exact grown.trans
      (rest order tree value between ended order between (grown.ready ready))

theorem guarded
    {handler : Fault → Session α}
    (isLocal : Local session)
    (localHandler : ∀ fault, Local (handler fault))
    (first : Grows done session)
    (handled : ∀ fault, Grows done (handler fault)) :
    Grows done (Session.guarded session handler) := by
  intro order tree ready
  have grown := first order tree ready
  rw [among_guarded isLocal localHandler]
  rcases ended : session.among order tree with ⟨fault | value, between⟩
  · rw [ended] at grown
    dsimp only
    split
    · exact grown
    · exact grown.trans (handled fault order between (grown.ready ready))
  · rw [ended] at grown
    exact grown

end Grows

end Session

namespace Output

variable {tree : FileTree}

theorem local_copyFile
    (source target : Path) :
    Local (copyFile source target) := by
  refine .bind (.reports (.readFile source)) fun content =>
    .bind (.storeFile _ _) fun cause => ?_
  split
  · exact .lift (.error _)
  · exact .pure ()

theorem local_copyTemplate
    (template target : Path) :
    Local (copyTemplate template target) := by
  refine .bind (.reports (.pathExists _)) fun isThere => ?_
  split
  · exact .bind (local_copyFile _ _) fun _ => .pure _
  · exact .pure _

theorem local_ensureCredentials
    (output : Output)
    (language : String) :
    Local (output.ensureCredentials language) := by
  unfold ensureCredentials
  refine .bind (.reports (.pathExists _)) fun isThere => ?_
  split
  · exact .pure _
  · refine .bind (local_copyTemplate _ _) fun isCopied => ?_
    split
    · exact .pure _
    · split
      · exact .pure _
      · exact local_copyTemplate _ _

theorem local_workflowFile
    (output : Output)
    (workflow : Value)
    (language : String) :
    Local (output.workflowFile workflow language) := by
  unfold workflowFile languageDirectory
  exact .bind (.bind (.makeDirectory _) fun _ => .pure _) fun directory =>
    .bind (.lift _) fun name => .bind (.lift _) fun fileName => .pure _

theorem among_copyTemplate
    (template target : Path)
    (order : SetOrder)
    (tree : FileTree) :
    (copyTemplate template target).among order tree =
      match tree.templateContent template with
      | .error fault => (.error fault, tree)
      | .ok none => (.ok false, tree)
      | .ok (some source) =>
          match tree.write target source.2 with
          | .error fault => (.error fault, tree)
          | .ok written =>
              (match tree.deviceFault? target with
                | some cause =>
                    .error (.copying cause source.1.text target.text)
                | none => .ok true,
                written) := by
  rw [among, copyTemplate, start_bind, Template.start_pathExists,
    FileTree.templateContent]
  cases tree.has template with
  | error fault =>
      rfl
  | ok isThere =>
      cases isThere with
      | false =>
          rfl
      | true =>
          simp only [if_true, bind, Except.bind]
          rw [show ∀ next : Unit →
            Session Bool, ExceptT.bind (copyFile template target) next =
              (copyFile template target >>= next) from fun _ => rfl, start_bind,
              start_copyFile]
          cases tree.read template with
          | error fault =>
              rfl
          | ok content =>
              dsimp only [Functor.map, Except.map]
              cases tree.write target content with
              | error fault =>
                  rfl
              | ok written =>
                  cases tree.deviceFault? target <;> rfl

/-- What comes of credentials that are copied, as the device fails or not. -/
def arrival
    (language : Language)
    (template : Path) :
    Option Setback → Except Fault Bool
  | some setback =>
      .error (.copying setback.cause template.text
        (standard.credentialsFile language.code).text)
  | none => .ok true

/--
Missing credentials are copied from a template that is there, if they can be
written.
-/
theorem among_copyTemplate_credentials
    {language : Language}
    {order : SetOrder}
    (ready : tree.Ready)
    (missing : tree.entry? (credentialsPlace language) = none)
    (template : Path) :
    (copyTemplate template (standard.credentialsFile language.code)).among order
      tree =
      match tree.templateContent template with
      | .error fault => (.error fault, tree)
      | .ok none => (.ok false, tree)
      | .ok (some source) =>
          if tree.locked.contains (credentialsPlace language) then
            (.error (.file .denied
              (standard.credentialsFile language.code).text), tree)
          else
            (arrival language source.1
              (tree.setback? (tree.below (credentialsPlace language))),
              tree.set (credentialsPlace language)
                (.file (tree.arriving (tree.below (credentialsPlace language))
                  source.2))) := by
  have located := ready.locate_credentialsPlace language
  rw [among_copyTemplate]
  rcases tree.templateContent template with fault | found | source
  · rfl
  · rfl
  · dsimp only
    rw [FileTree.write_of_locate located, missing, FileTree.deviceFault?,
      located]
    cases tree.locked.contains (credentialsPlace language) with
    | true =>
        rfl
    | false =>
        cases isFailing :
          tree.setback? (tree.below (credentialsPlace language)) <;>
          simp [isFailing, arrival]

/--
Credentials are kept if they are there, and else copied if there is a source.
-/
theorem among_ensureCredentials
    (ready : tree.Ready)
    (language : Language)
    (order : SetOrder) :
    (standard.ensureCredentials language.code).among order tree =
      if (tree.entry? (credentialsPlace language)).isSome then (.ok true, tree)
      else
        match tree.credentialsSource language with
        | .error fault => (.error fault, tree)
        | .ok none => (.ok false, tree)
        | .ok (some source) =>
            if tree.locked.contains (credentialsPlace language) then
              (.error (.file .denied
                (standard.credentialsFile language.code).text), tree)
            else
              (arrival language source.1
                (tree.setback? (tree.below (credentialsPlace language))),
                tree.set (credentialsPlace language)
                  (.file (tree.arriving (tree.below (credentialsPlace language))
                    source.2))) := by
  have asked : tree.has (standard.credentialsFile language.code) =
      .ok (tree.entry? (credentialsPlace language)).isSome := by
    rw [FileTree.has, FileTree.find, ready.locate_credentialsPlace language]
    simp only [bind, Except.bind, FileTree.entryAt?_below]
    cases tree.entry? (credentialsPlace language) <;> rfl
  have localFallback :
      ∀ isCopied : Bool, Local (if isCopied = true then pure true
      else if language.code = "php" then pure false
      else copyTemplate (credentialsTemplate "Credentials.php")
        (standard.credentialsFile language.code)) := by
    intro isCopied
    split
    · exact .pure _
    · split
      · exact .pure _
      · exact local_copyTemplate _ _
  unfold ensureCredentials
  rw [among_bind (.reports (.pathExists _)), among_pathExists, asked]
  · cases isEntry : tree.entry? (credentialsPlace language) with
    | some entry =>
        rfl
    | none =>
        have copied :=
          @among_copyTemplate_credentials tree language order ready isEntry
        change (copyTemplate (credentialsTemplate
          (credentialsName language.code))
            (standard.credentialsFile language.code) >>= fun isCopied =>
          if isCopied = true then pure true else if language.code =
            "php" then pure false
          else copyTemplate (credentialsTemplate "Credentials.php")
            (standard.credentialsFile language.code)).among order tree = _
        rw [among_bind (local_copyTemplate _ _) localFallback, copied,
          FileTree.credentialsSource]
        rcases tree.templateContent
          (credentialsTemplate (credentialsName language.code)) with
          fault | found | source
        · rfl
        · simp only [bind, Except.bind, Bool.false_eq_true, if_false,
            Option.isSome_none]
          split
          · rfl
          · exact copied _
        · simp only [bind, Except.bind, Option.isSome_none, Bool.false_eq_true,
            if_false]
          cases tree.locked.contains (credentialsPlace language) with
          | true =>
              rfl
          | false =>
              cases tree.setback? (tree.below (credentialsPlace language)) <;>
                rfl
  · intro isThere
    split
    · exact .pure _
    · exact .bind (local_copyTemplate _ _) localFallback

theorem among_languageDirectory
    (ready : tree.Ready)
    (language : Language)
    (order : SetOrder) :
    (Session.makeDirectory (standard.base.join language.code)).among order
      tree =
      match tree.entry? (languagePlace language) with
      | some .directory => (.ok (), tree)
      | some (.file _) =>
          (.error (.file .taken (standard.base.join language.code).text), tree)
      | none => (.ok (), tree.set (languagePlace language) .directory) := by
  rw [Session.makeDirectory, among_changeFiles,
    FileTree.makeDirectory_of_locate (ready.locate_languagePlace language)]
  rcases tree.entry? (languagePlace language) with
    missing | isDirectory | content <;> rfl

variable {done : Value → Language → Prop} {workflow : Value}
  {language : Language}

theorem grows_ensureCredentials
    (isDone : done workflow language) :
    Grows done (standard.ensureCredentials language.code) := by
  intro order tree ready
  rw [among_ensureCredentials ready]
  split
  · exact .refl done tree
  · rename_i notThere
    have wasMissing : tree.entry? (credentialsPlace language) = none := by
      simpa using notThere
    split
    · exact .refl done tree
    · exact .refl done tree
    · rename_i template source
      split
      · exact .refl done tree
      · rename_i unlocked
        exact .of_set (List.cons_ne_nil _ _)
          (.credentials isDone rfl wasMissing source (by simpa using unlocked)
            rfl)

theorem grows_languageDirectory
    (isDone : done workflow language) :
    Grows done (Session.makeDirectory (standard.base.join language.code)) := by
  intro order tree ready
  rw [among_languageDirectory ready]
  split
  · exact .refl done tree
  · exact .refl done tree
  · rename_i wasMissing
    exact .of_set (List.cons_ne_nil _ _) (.directory isDone rfl wasMissing rfl)

theorem grows_workflowFile
    (isDone : done workflow language) :
    Grows done (standard.workflowFile workflow language.code) := by
  unfold workflowFile languageDirectory
  refine .bind (.bind (.makeDirectory _) fun _ => .pure _)
    (fun directory => .bind (.lift _) fun name =>
      .bind (.lift _) fun fileName => .pure _)
    (.bind (.makeDirectory _) (fun _ => .pure _)
      (grows_languageDirectory isDone) fun _ _ _ _ _ => .reports (.pure _))
    fun _ _ directory _ _ => .reports ?_
  exact .bind (.lift _) fun name => .bind (.lift _) fun fileName => .pure _

theorem among_writeFile
    (path : Path)
    (content : Content)
    (order : SetOrder)
    (tree : FileTree) :
    (Session.writeFile path content).among order tree =
      match tree.write path content with
      | .ok written =>
          (match tree.deviceFault? path with
            | some cause => .error (.device cause)
            | none => .ok (),
            written)
      | .error fault => (.error fault, tree) := by
  rw [among, start_writeFile]
  cases tree.write path content <;> rfl

theorem grows_writeFile
    {text : String}
    (isDone : done workflow language)
    (named : workflow.get "name" (.text "workflow") = .ok (.text text))
    (content : Content) :
    Grows done (Session.writeFile ⟨"", codePlace language text⟩ content) := by
  intro order tree _
  rw [among_writeFile]
  cases written : tree.write ⟨"", codePlace language text⟩ content with
  | error fault =>
      exact .refl done tree
  | ok after =>
      obtain ⟨place, located, notDirectory, rfl⟩ := FileTree.write_eq_ok written
      obtain rfl := eq_codePlace_of_locate located
      rw [FileTree.entryAt?_below] at notDirectory
      rw [FileTree.setAt_below]
      exact .of_set (List.cons_ne_nil _ _)
        (.code isDone named rfl notDirectory rfl)

theorem eq_codePlace_of_workflowFile
    {path : Path}
    {order : SetOrder}
    {after : FileTree}
    (found : (standard.workflowFile workflow language.code).among order tree =
      (.ok path, after)) :
    ∃ text, workflow.get "name" (.text "workflow") = .ok (.text text) ∧
      path = ⟨"", codePlace language text⟩ := by
  obtain ⟨text, named, pathIs⟩ :=
    (returns_workflowFile standard workflow language.code).of_among found
  exact ⟨text, named, pathIs.trans (standard_workflowFile language text)⟩

end Output

namespace Class.Generator

variable {done : Value → Language → Prop} {workflow : Value}
  {language : Language}

theorem local_storing
    (generator : Generator)
    (workflow : Value)
    (code : String) :
    Local (generator.storing workflow (.text code)) :=
  .bind (Output.local_ensureCredentials _ _) fun _ =>
    .bind (Output.local_workflowFile _ _ _) fun _ =>
    .bind (.writeFile _ _) fun _ => .bind (.print _) fun _ => .pure _

theorem local_save
    (generator : Generator)
    (workflow : Value)
    (code : String) :
    Local (generator.save workflow (.text code)) :=
  .guarded (local_storing generator workflow code) fun _ =>
    .bind (.print _) fun _ => .pure _

theorem reports_saved
    (text : String) :
    Reports (do
      Session.print text
      return true) :=
  .bind (.print _) fun _ => .pure _

theorem grows_save
    (isDone : done workflow language)
    (store : Template.Store)
    (code : String) :
    Grows done (save ⟨store, language.code, .standard⟩ workflow
      (.text code)) := by
  refine .guarded (local_storing _ workflow code)
    (fun fault => .bind (.print _) fun _ => .pure _) ?_
    fun fault => .reports (.bind (.print _) fun _ => .pure _)
  refine .bind (Output.local_ensureCredentials _ _)
    (fun _ => .bind (Output.local_workflowFile _ _ _) fun _ =>
      .bind (.writeFile _ _) fun _ => .reports (reports_saved _))
    (Output.grows_ensureCredentials isDone) fun _ _ _ _ _ => ?_
  refine .bind (Output.local_workflowFile _ _ _)
    (fun _ => .bind (.writeFile _ _) fun _ => .reports (reports_saved _))
    (Output.grows_workflowFile isDone) fun _ tree path after found => ?_
  obtain ⟨text, named, rfl⟩ := Output.eq_codePlace_of_workflowFile found
  exact .bind (.writeFile _ _) (fun _ => .reports (reports_saved _))
    (Output.grows_writeFile isDone named _) fun _ _ _ _ _ =>
    .reports (reports_saved _)

/--
A generator can be made if and only if the tree can be prepared for output;
otherwise the tree is still the same to prepare.
-/
theorem make_cases
    (store : Template.Store)
    (language : String)
    (order : SetOrder)
    (tree : FileTree) :
    (tree.prepared.Ready ∧
        (make store language).among order tree =
          (.ok ⟨store, language, .standard⟩, tree.prepared)) ∨
      ∃ fault after, (make store language).among order tree =
        (.error fault, after) ∧
        ¬ tree.prepared.Ready ∧ after.prepared = tree.prepared := by
  have opened : (make store language).among order tree =
      match tree.makeDirectory Output.standard.base with
      | .error fault => (.error fault, tree)
      | .ok first =>
          match first.makeDirectory Output.standard.credentialsDirectory with
          | .error fault => (.error fault, first)
          | .ok second => (.ok ⟨store, language, .standard⟩, second) := by
    unfold make Output.make Session.makeDirectory
    rw [among_bind (.bind (.changeFiles _) fun _ =>
        .bind (.changeFiles _) fun _ => .pure _) fun _ => .pure _,
      among_bind (.changeFiles _) fun _ => .bind (.changeFiles _) fun _ =>
      .pure _,
      among_changeFiles]
    rw [show (⟨.ofText "output"⟩ : Output) = .standard from rfl]
    cases tree.makeDirectory Output.standard.base with
    | error fault =>
        rfl
    | ok first =>
        dsimp only
        rw [among_bind (.changeFiles _) fun _ => .pure _, among_changeFiles]
        cases first.makeDirectory Output.standard.credentialsDirectory <;> rfl
  rw [opened]
  rcases FileTree.makeDirectory_cases tree.locate_output with
    ⟨content, fault, isFile, failed⟩ | ⟨isDirectory, made⟩
  · rw [failed]
    refine .inr ⟨fault, tree, rfl, fun ready => ?_, rfl⟩
    have notFile := ready.output
    rw [FileTree.entry?_prepared, isFile] at notFile
    simp at notFile
  · rw [made]
    dsimp only
    have located : (tree.withDirectory ["output"]).locate
        Output.standard.credentialsDirectory =
        .ok (FileTree.below (tree.withDirectory ["output"])
          ["output", "credentials"]) := by
      rw [Output.standard_credentialsDirectory]
      exact FileTree.locate_in_output isDirectory (by decide)
    rcases FileTree.makeDirectory_cases located with
      ⟨content, fault, isFile, failed⟩ | ⟨alsoDirectory, alsoMade⟩
    · have preparedIs : tree.prepared = tree.withDirectory ["output"] := by
        rw [FileTree.prepared, FileTree.withDirectory,
          if_pos (by simp [isFile])]
      rw [failed, preparedIs]
      refine .inr ⟨fault, _, rfl, fun ready => ?_, ?_⟩
      · have notFile := ready.credentials
        rw [isFile] at notFile
        cases notFile
      · rw [FileTree.prepared, FileTree.withDirectory, FileTree.withDirectory]
        simp [isDirectory, isFile]
    · rw [alsoMade]
      refine .inl ⟨⟨?_, alsoDirectory⟩, rfl⟩
      rw [FileTree.prepared, FileTree.withDirectory,
        FileTree.entry?_withDirectory (by simp), if_neg (by simp), isDirectory]

end Class.Generator

end Flowgen
