import Flowgen.Proofs.OutputSteps

namespace Flowgen

/-!
# The credentials beside saved code

Code that is saved has the credentials file of its language beside it, unless
a directory stands in the place of that file.  Nothing else among the
credentials is touched, and whether saving goes well does not depend on the
code.
-/

open Session

namespace FileTree

variable {tree after : FileTree} {names : List String}

theorem directory_of_follow
    {start front : List String}
    {final : Place}
    (noUp : ".." ∉ names)
    (notNil : names ≠ [])
    (followed : tree.follow (tree.below start) names = .ok final)
    (isFront : front <+: names.dropLast) :
    tree.entry? (start ++ front) = some .directory := by
  induction names generalizing start front with
  | nil =>
      exact absurd rfl notNil
  | cons name names inductionHypothesis =>
      obtain ⟨notUp, restNoUp⟩ := not_or.mp (List.mem_cons.not.mp noUp)
      rw [follow] at followed
      split at followed
      · cases followed
      · rename_i noFault
        split at followed
        · cases followed
        cases front with
        | nil =>
            rw [directoryFault?, entryAt?_below] at noFault
            rw [List.append_nil]
            split at noFault
            · assumption
            · cases noFault
            · cases noFault
        | cons first front =>
            cases names with
            | nil =>
                cases List.prefix_nil.mp isFront
            | cons next names =>
                rw [List.dropLast_cons_cons, List.cons_prefix_cons] at isFront
                obtain ⟨rfl, isRest⟩ := isFront
                rw [child, if_neg (Ne.symm notUp), below,
                  List.append_assoc] at followed
                have found :=
                  inductionHypothesis restNoUp (by simp) followed isRest
                rwa [List.append_assoc, List.singleton_append] at found

theorem directories_of_locate
    {first second third : String}
    {place : Place}
    (noUp : ".." ∉ [first, second, third])
    (located : tree.locate ⟨"", [first, second, third]⟩ = .ok place) :
    tree.entry? [first] = some .directory ∧
    tree.entry? [first, second] = some .directory := by
  have followed := follow_of_locate located
  rw [rootPlace, if_pos rfl, ← below_nil] at followed
  have inside : ∀ front, front <+: [first, second] →
      tree.entry? front = some .directory :=
    fun front isFront => directory_of_follow noUp (by simp) followed isFront
  exact ⟨inside _ ⟨[second], rfl⟩, inside _ List.prefix_rfl⟩

theorem exists_write_eq_ok
    {path : Path}
    {content : Content}
    (written : tree.write path content = .ok after)
    (other : Content) :
    ∃ files, tree.write path other = .ok files := by
  unfold write at written ⊢
  obtain ⟨place, located, written⟩ := bind_eq_ok.mp written
  rw [located]
  dsimp only [bind, Except.bind]
  split at written
  · cases written
  · rename_i isOpen
    rw [if_neg isOpen]
    split at written
    · cases written
    · exact ⟨_, rfl⟩

theorem exists_entry_of_has
    (noUp : ".." ∉ names)
    (isThere : tree.has ⟨"", names⟩ = .ok true) :
    ∃ entry, tree.locate ⟨"", names⟩ = .ok (tree.below names) ∧
      tree.entry? names = some entry := by
  unfold has at isThere
  split at isThere
  · rename_i entry found
    unfold find at found
    obtain ⟨place, located, found⟩ := bind_eq_ok.mp found
    obtain rfl := eq_below_of_locate noUp located
    rw [entryAt?_below] at found
    split at found
    · rename_i other isEntry
      exact ⟨other, located, isEntry⟩
    · cases found
  · split at isThere
    · cases isThere
    · cases isThere

end FileTree

namespace Output

variable {host after : Host} {language : Language}

/--
The template of the credentials for a language is one of the shipped files.
-/
theorem exists_credentialsTemplate
    (language : Language) :
    ∃ content, (["templates", "credentials",
        "Credentials" ++ language.extension], content) ∈ Template.shippedFiles ∧
      credentialsTemplate (credentialsName language.code) =
        ⟨"", ["templates", "credentials",
          "Credentials" ++ language.extension]⟩ := by
  cases language with
  | php =>
      exact ⟨Template.Shipped.phpCredentials,
        by simp [Template.shippedFiles, Language.extension], by decide +kernel⟩
  | python =>
      exact ⟨Template.Shipped.pythonCredentials,
        by simp [Template.shippedFiles, Language.extension], by decide +kernel⟩
  | javascript =>
      exact ⟨Template.Shipped.javascriptCredentials,
        by simp [Template.shippedFiles, Language.extension], by decide +kernel⟩

/--
Credentials that are made sure of are there.  A file is written where nothing
was, and a directory in its place stays.
-/
theorem ensureCredentials_eq_ok
    {isEnsured : Bool}
    (equipped : Template.Equipped host.files)
    (ensured : (standard.ensureCredentials language.code).start host =
      (.ok isEnsured, after)) :
    ∃ entry,
      after.files.locate (standard.credentialsFile language.code) =
        .ok (after.files.below (credentialsPlace language)) ∧
      after.files.entry? (credentialsPlace language) = some entry ∧
      (entry = .directory ↔
        host.files.entry? (credentialsPlace language) = some .directory) := by
  have noUp : ".." ∉ credentialsPlace language := by
    cases language <;> decide
  have targetIs : standard.credentialsFile language.code =
      ⟨"", credentialsPlace language⟩ :=
    standard_credentialsFile language
  obtain ⟨content, isShipped, templateIs⟩ := exists_credentialsTemplate language
  have template := equipped.find isShipped
  rw [← templateIs] at template
  rw [targetIs]
  rw [ensureCredentials, targetIs, start_bind, Template.start_pathExists]
    at ensured
  cases isThere : host.files.has ⟨"", credentialsPlace language⟩ with
  | error fault =>
      rw [isThere] at ensured
      cases ensured
  | ok there =>
      rw [isThere] at ensured
      cases there with
      | true =>
          cases ensured
          obtain ⟨entry, located, isEntry⟩ :=
            FileTree.exists_entry_of_has noUp isThere
          exact ⟨entry, located, isEntry, by rw [isEntry, Option.some.injEq]⟩
      | false =>
          simp only [Bool.false_eq_true, if_false, if_true, copyTemplate,
            start_bind, Template.start_pathExists, start_copyFile,
            Template.has_eq_true template,
            Template.read_eq_ok.mpr template] at ensured
          cases written : host.files.write ⟨"", credentialsPlace language⟩
              (.text content) with
          | error fault =>
              rw [written] at ensured
              cases ensured
          | ok files =>
              rw [written] at ensured
              obtain ⟨place, located, notDirectory, rfl⟩ :=
                FileTree.write_eq_ok written
              obtain rfl := FileTree.eq_below_of_locate noUp located
              have leads := fun content =>
                @FileTree.locate_setAt_file _ _ _ _ content notDirectory located
              rw [FileTree.entryAt?_below] at notDirectory
              cases isFailing : host.files.deviceFault?
                  ⟨"", credentialsPlace language⟩ with
              | some cause =>
                  rw [isFailing] at ensured
                  cases ensured
              | none =>
                  rw [isFailing] at ensured
                  cases ensured
                  simp only [FileTree.setAt_below] at leads ⊢
                  refine ⟨_, leads _, (FileTree.entry?_set
                    (List.cons_ne_nil _ _)).trans (if_pos rfl), ?_⟩
                  simp [notDirectory]

end Output

namespace Class.Generator

variable {generator : Generator} {store : Template.Store} {language : Language}
  {workflow : Value} {code : String} {host after : Host}

theorem storing_eq_ok :
    (generator.storing workflow (.text code)).start host = (.ok true, after) ↔
      ∃ isEnsured first file second files,
        (generator.output.ensureCredentials generator.language).start host =
          (.ok isEnsured, first) ∧
        (generator.output.workflowFile workflow generator.language).start
          first = (.ok file, second) ∧
        second.files.write file (.text code) = .ok files ∧
        second.files.deviceFault? file = none ∧
        (print ("✓ Arquivo gerado: " ++ file.text)).start
          { second with files := files } = (.ok (), after) := by
  unfold storing
  rw [bind_start_eq_ok]
  constructor
  · rintro ⟨isEnsured, first, ensured, stored⟩
    obtain ⟨file, second, found, stored⟩ := bind_start_eq_ok.mp stored
    obtain ⟨_, third, wrote, stored⟩ := bind_start_eq_ok.mp stored
    obtain ⟨_, fourth, printed, ended⟩ := bind_start_eq_ok.mp stored
    rw [write, start_writeFile] at wrote
    split at wrote
    · rename_i files written
      rw [Prod.mk.injEq] at wrote
      obtain ⟨arrived, rfl⟩ := wrote
      split at arrived
      · cases arrived
      · cases ended
        exact ⟨isEnsured, first, file, second, files, ensured, found, written,
          by assumption, printed⟩
    · cases wrote
  · rintro ⟨isEnsured, first, file, second, files, ensured, found, written,
      arrived, printed⟩
    refine ⟨isEnsured, first, ensured, ?_⟩
    rw [start_bind, found]
    dsimp only
    rw [start_bind, write, start_writeFile, written, arrived]
    dsimp only
    rw [start_bind, printed]
    rfl

theorem save_eq_ok :
    (generator.save workflow (.text code)).start host = (.ok true, after) ↔
      (generator.storing workflow (.text code)).start host =
        (.ok true, after) := by
  rw [save, start_guarded]
  rcases (generator.storing workflow (.text code)).start host with
    ⟨fault | isStored, between⟩
  · dsimp only
    split
    · rfl
    · constructor
      · intro handled
        cases handled
      · intro stored
        cases stored
  · rfl

/-- Whether saving goes well does not depend on the code. -/
theorem exists_save_eq_ok
    (saved : (generator.save workflow (.text code)).start host =
      (.ok true, after))
    (other : String) :
    ∃ ended, (generator.save workflow (.text other)).start host =
      (.ok true, ended) := by
  rw [save_eq_ok, storing_eq_ok] at saved
  obtain ⟨isEnsured, first, file, second, files, ensured, found, written,
    arrived, _⟩ := saved
  obtain ⟨others, alsoWritten⟩ :=
    FileTree.exists_write_eq_ok written (.text other)
  exact ⟨_, save_eq_ok.mpr (storing_eq_ok.mpr
    ⟨isEnsured, first, file, second, others, ensured, found, alsoWritten,
      arrived, rfl⟩)⟩

/-- What is there beside saved code, and where it comes from. -/
structure Beside (language : Language) (before after : FileTree) : Prop where
  ready : after.Ready
  directory : after.entry? (Output.languagePlace language) = some .directory
  credentials :
    ∃ entry, after.entry? (Output.credentialsPlace language) = some entry ∧
      (entry = .directory ↔ before.entry? (Output.credentialsPlace language) =
        some .directory)
  others : ∀ name, name ≠ "Credentials" ++ language.extension →
    after.entry? ["output", "credentials", name] =
      before.entry? ["output", "credentials", name]

/-- What a call changes among the credentials is the file of its language. -/
theorem entry?_of_permission
    {before after : FileTree}
    {call : SaveCall}
    {name : String}
    (changes : before.Changes (call.permission before) after)
    (isOther : name ≠ "Credentials" ++ call.language.extension) :
    after.entry? ["output", "credentials", name] =
      before.entry? ["output", "credentials", name] := by
  have change := changes.entries ["output", "credentials", name]
  generalize before.entry? ["output", "credentials", name] = earlier at change
  generalize after.entry? ["output", "credentials", name] = later at change
  cases change with
  | same =>
      rfl
  | made may =>
      have isPlace : ["output", "credentials", name] =
          ["output", call.language.code] := may
      simp at isPlace
  | written may _ _ =>
      obtain ⟨text, _, isTarget⟩ | ⟨isPlace, _⟩ := may
      · have code : "credentials" = call.language.code :=
          (List.cons.inj (List.cons.inj isTarget).2).1
        generalize call.language = language at code
        cases language <;> exact absurd code (by decide)
      · exact absurd (by simpa [Output.credentialsPlace] using isPlace) isOther

/-- What may change once the credentials are made sure of. -/
def completion (language : Language) : Permission where
  make names := names = Output.languagePlace language
  write names := ∃ text, names = Output.codePlace language text

/-- The credentials stay as they are once they are made sure of. -/
theorem credentials_of_completion
    {before after : FileTree}
    (changes : before.Changes (completion language) after) :
    after.entry? (Output.credentialsPlace language) =
      before.entry? (Output.credentialsPlace language) := by
  have change := changes.entries (Output.credentialsPlace language)
  generalize before.entry? (Output.credentialsPlace language) =
    earlier at change
  generalize after.entry? (Output.credentialsPlace language) = later at change
  cases change with
  | same =>
      rfl
  | made may =>
      have isPlace : Output.credentialsPlace language =
          Output.languagePlace language := may
      simp [Output.credentialsPlace, Output.languagePlace] at isPlace
  | written may _ _ =>
      obtain ⟨text, isTarget⟩ := may
      exact absurd isTarget.symm (Output.codePlace_ne_credentialsPlace _ _ _)

/-- Code that is saved has its credentials beside it. -/
theorem beside_of_save
    (equipped : Template.Equipped host.files)
    (saved : (save ⟨store, language.code, .standard⟩ workflow
      (.text code)).start host = (.ok true, after)) :
    Beside language host.files after.files := by
  obtain ⟨isEnsured, first, file, second, files, ensured, found, written, _,
    printed⟩ :=
    storing_eq_ok.mp (save_eq_ok.mp saved)
  have afterFiles : after.files = files := by
    cases printed
    rfl
  obtain ⟨entry, located, isEntry, wasDirectory⟩ :=
    Output.ensureCredentials_eq_ok equipped ensured
  have looked : first.files.Changes (completion language)
      ((Output.standard.workflowFile workflow language.code).start
        first).2.files :=
    Output.within_workflowFile (fun _ _ located =>
      ⟨_, Output.eq_languagePlace_of_locate located, rfl⟩) workflow first
  obtain ⟨text, _, fileIs⟩ :=
    Output.returns_workflowFile .standard workflow language.code first second
      file found
  rw [Output.standard_workflowFile] at fileIs
  obtain ⟨place, codeLocated, notDirectory, filesAre⟩ :=
    FileTree.write_eq_ok written
  rw [fileIs] at codeLocated
  obtain rfl := Output.eq_codePlace_of_locate codeLocated
  rw [FileTree.entryAt?_below] at notDirectory
  rw [FileTree.setAt_below] at filesAre
  have may : (completion language).write (Output.codePlace language text) :=
    ⟨text, rfl⟩
  have wrote : second.files.Changes (completion language) after.files := by
    rw [afterFiles, filesAre]
    exact .of_set (List.cons_ne_nil _ _) (.written may notDirectory _)
  have changes : first.files.Changes (completion language) after.files := by
    rw [show (Output.standard.workflowFile workflow language.code).start first =
      (.ok file, second) from found] at looked
    exact looked.trans wrote
  rw [Output.standard_credentialsFile] at located
  obtain ⟨isOutput, isCredentials⟩ :=
    FileTree.directories_of_locate (by cases language <;> decide) located
  obtain ⟨_, isLanguage⟩ :=
    FileTree.directories_of_locate (Output.up_not_mem_codePlace language text)
      codeLocated
  refine {
    ready := ⟨changes.directory isOutput, changes.directory isCredentials⟩
    directory := wrote.directory isLanguage
    credentials := ⟨entry, ?_, wasDirectory⟩
    others := fun name isOther => ?_ }
  · rw [credentials_of_completion changes, isEntry]
  · obtain ⟨_, ended, started, allChanges, _⟩ :=
      SaveCall.start_session ⟨store, language, workflow, .text code⟩ host
    obtain ⟨_, rfl⟩ := Prod.mk.inj (started.symm.trans saved)
    exact entry?_of_permission allChanges isOther

end Class.Generator

end Flowgen
