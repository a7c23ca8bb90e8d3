import Flowgen.Proofs.GeneratedClass
import Flowgen.Proofs.ProgramFiles

namespace Flowgen

/-!
# Workflows that share a file

A workflow is saved in a file that is named by the underscored words of its
name.  What is saved next in the same language takes the place of it if its
own name has the same underscored words, and leaves it alone otherwise.
-/

open Session

namespace FileTree

variable {tree before after : FileTree} {permission : Permission}
  {names : List String}

theorem Changes.directory
    (changes : before.Changes permission after)
    (isDirectory : before.entry? names = some .directory) :
    after.entry? names = some .directory := by
  have change := changes.entries names
  rw [isDirectory] at change
  generalize after.entry? names = entry at change
  cases change with
  | same =>
      rfl
  | written _ notDirectory _ =>
      exact absurd rfl notDirectory

section Places

variable {path : Path} {place other : Place} {entry : Entry} {content : Content}

theorem home_setAt
    (tree : FileTree)
    (place : Place)
    (entry : Entry) :
    (tree.setAt place entry).home = tree.home := by
  unfold setAt
  split <;> rfl

theorem entryAt?_setAt
    (notDirectory : tree.entryAt? place ≠ some .directory) :
    (tree.setAt place entry).entryAt? other =
      if other = place then some entry else tree.entryAt? other := by
  have sameNames : ∀ other, (tree.setAt place entry).namesTo? other =
      tree.namesTo? other := by
    intro other
    rw [namesTo?, namesTo?, top, top, home_setAt]
  rw [entryAt?, sameNames, setAt]
  cases leads : tree.namesTo? place with
  | some names =>
      obtain rfl := namesTo?_eq_some.mp leads
      rw [entryAt?_below] at notDirectory
      cases others : tree.namesTo? other with
      | some otherNames =>
          obtain rfl := namesTo?_eq_some.mp others
          simp [entry?_set (ne_nil_of_not_directory notDirectory),
            tree.below_injective.eq_iff]
      | none =>
          have isOther : other ≠ tree.below names := by
            rintro rfl
            rw [leads] at others
            cases others
          rw [if_neg isOther, entryAt?, others]
          rfl
  | none =>
      rw [entryAt?, leads, outer?] at notDirectory
      have notAbove : ¬ place.isPrefixOf tree.top = true := fun isAbove =>
        notDirectory (if_pos isAbove)
      cases others : tree.namesTo? other with
      | some otherNames =>
          have isOther : other ≠ place := by
            rintro rfl
            rw [leads] at others
            cases others
          rw [if_neg isOther, entryAt?, others]
          rfl
      | none =>
          rw [entryAt?, others]
          simp only [outer?, lookup_setIn]
          by_cases isSame : other = place
          · subst isSame
            rw [if_pos rfl, if_pos rfl]
            exact if_neg notAbove
          · rw [if_neg isSame, if_neg isSame]
            rfl

theorem locate_of_directories
    (sameHome : after.home = before.home)
    (directories : ∀ place, before.entryAt? place = some .directory →
      after.entryAt? place = some .directory)
    (located : before.locate path = .ok place) :
    after.locate path = .ok place := by
  have follows : ∀ names start final, before.follow start names = .ok final →
      after.follow start names = .ok final := by
    intro names
    induction names with
    | nil =>
        exact fun _ _ followed => followed
    | cons name names inductionHypothesis =>
        intro start final followed
        rw [follow] at followed ⊢
        split at followed
        · cases followed
        · rename_i isDirectory
          rw [directoryFault?_eq_none] at isDirectory
          rw [directoryFault?_eq_none.mpr (directories start isDirectory)]
          split at followed
          · cases followed
          · rename_i short
            simp only [short, if_false]
            exact inductionHypothesis _ _ followed
  have followed := follows _ _ _ (follow_of_locate located)
  have sameRoot : after.rootPlace path.root = before.rootPlace path.root := by
    rw [rootPlace, rootPlace, top, top, sameHome]
  unfold locate at located ⊢
  split at located
  · cases located
  · rename_i noNull
    split at located
    · cases located
    · rename_i short
      rw [if_neg noNull, if_neg short, sameRoot, followed]
      rfl

theorem locate_setAt_file
    (notDirectory : tree.entryAt? other ≠ some .directory)
    (located : tree.locate path = .ok place) :
    (tree.setAt other (.file content)).locate path = .ok place := by
  refine locate_of_directories (home_setAt _ _ _) (fun place isDirectory => ?_)
    located
  rw [entryAt?_setAt notDirectory, if_neg ?_, isDirectory]
  rintro rfl
  exact notDirectory isDirectory

theorem entryAt?_of_has
    (missing : tree.has path = .ok false)
    (located : tree.locate path = .ok place) :
    tree.entryAt? place = none := by
  cases isThere : tree.entryAt? place with
  | none =>
      rfl
  | some entry =>
      have found : tree.find path = .ok entry := by
        simp [find, located, isThere, bind, Except.bind]
      rw [has, found] at missing
      cases missing

theorem read_of_locate
    (located : tree.locate path = .ok place)
    (isFile : tree.entryAt? place = some (.file content)) :
    tree.read path = .ok content := by
  simp [read, find, located, isFile, bind, Except.bind]

/-- All of a content arrives where the device does not fail. -/
theorem arriving_of_deviceFault?
    (located : tree.locate path = .ok place)
    (noFault : tree.deviceFault? path = none)
    (content : Content) :
    tree.arriving place content = content := by
  rw [deviceFault?, located, Option.map_eq_none_iff] at noFault
  rw [arriving, noFault]

/--
Two names in a directory lead to the same place if and only if they are the
same.
-/
theorem locate_join_inj
    {directory : Path}
    {first second : String}
    (isFirst : Path.IsComponent first)
    (isSecond : Path.IsComponent second)
    (firstLocated : tree.locate (directory.join first) = .ok place)
    (secondLocated : tree.locate (directory.join second) = .ok other) :
    place = other ↔ first = second := by
  have firstFollowed := follow_of_locate firstLocated
  have secondFollowed := follow_of_locate secondLocated
  rw [Path.join_component _ isFirst] at firstFollowed
  rw [Path.join_component _ isSecond] at secondFollowed
  obtain ⟨start, followed, _, firstIs⟩ := follow_concat firstFollowed
  obtain ⟨otherStart, otherFollowed, _, secondIs⟩ :=
    follow_concat secondFollowed
  obtain rfl : start = otherStart :=
    Except.ok.inj (followed.symm.trans otherFollowed)
  rw [child, if_neg isFirst.notUp] at firstIs
  rw [child, if_neg isSecond.notUp] at secondIs
  rw [firstIs, secondIs, List.append_cancel_left_eq, List.singleton_inj]

/-- A tree that keeps all that is in another one. -/
structure Adds (before after : FileTree) : Prop where
  home : after.home = before.home
  kept : ∀ place entry, before.entryAt? place = some entry →
    after.entryAt? place = some entry

namespace Adds

theorem refl
    (tree : FileTree) :
    tree.Adds tree :=
  ⟨rfl, fun _ _ isThere => isThere⟩

theorem trans
    {between : FileTree}
    (first : before.Adds between)
    (second : between.Adds after) :
    before.Adds after :=
  ⟨second.home.trans first.home, fun place entry isThere =>
    second.kept place entry (first.kept place entry isThere)⟩

theorem of_setAt
    (absent : tree.entryAt? place = none) :
    tree.Adds (tree.setAt place entry) := by
  refine ⟨home_setAt _ _ _, fun other found isThere => ?_⟩
  rw [entryAt?_setAt (by simp [absent]), if_neg ?_, isThere]
  rintro rfl
  rw [absent] at isThere
  cases isThere

theorem of_makeDirectory
    (made : tree.makeDirectory path = .ok after) :
    tree.Adds after := by
  obtain rfl | ⟨place, _, absent, rfl⟩ := makeDirectory_eq_ok made
  · exact refl after
  · exact of_setAt absent

theorem locate
    (adds : before.Adds after)
    (located : before.locate path = .ok place) :
    after.locate path = .ok place :=
  locate_of_directories adds.home (fun place => adds.kept place .directory)
    located

end Adds

end Places

end FileTree

namespace Output

/-- Making sure of credentials only adds to the files. -/
theorem adds_ensureCredentials
    (output : Output)
    (language : String)
    (host : Host) :
    host.files.Adds ((output.ensureCredentials language).start
      host).2.files := by
  obtain same | ⟨missing, content, files, written, ended⟩ :=
    output.ensureCredentials_cases language host
  · rw [same]
    exact .refl _
  · rw [ended]
    obtain ⟨place, located, _, rfl⟩ := FileTree.write_eq_ok written
    exact .of_setAt (FileTree.entryAt?_of_has missing located)

/-- Looking for the file of a workflow only adds to the files. -/
theorem adds_workflowFile
    (output : Output)
    (workflow : Value)
    (language : String)
    (host : Host) :
    host.files.Adds ((output.workflowFile workflow language).start
      host).2.files := by
  unfold workflowFile languageDirectory
  simp only [start_bind, makeDirectory, start_changeFiles]
  cases made : host.files.makeDirectory (output.base.join language) with
  | error fault =>
      exact .refl _
  | ok files =>
      have adds := FileTree.Adds.of_makeDirectory made
      simp only [start_pure, start_lift]
      cases workflow.get "name" (.text "workflow") with
      | error fault =>
          exact adds
      | ok name =>
          dsimp only
          cases Naming.fileName name <;> exact adds

end Output

namespace Class.Generator

/-- The file for a workflow that goes by a text. -/
def fileFor (generator : Generator) (text : String) : Path :=
  (generator.output.base.join generator.language).join
    (Output.workflowName generator.language text)

/--
A workflow that is saved adds to the files, and then its own file is written.
-/
theorem save_eq_true
    {generator : Generator}
    {host after : Host}
    {workflow : Value}
    {code : String}
    (saved : (generator.save workflow (.text code)).start host =
      (.ok true, after)) :
    ∃ text prepared place,
      workflow.get "name" (.text "workflow") = .ok (.text text) ∧
      host.files.Adds prepared ∧
      prepared.locate (generator.fileFor text) = .ok place ∧
      prepared.entryAt? place ≠ some .directory ∧
      after.files = prepared.setAt place (.file (.text code)) := by
  rw [save, start_guarded] at saved
  split at saved
  · rename_i ended
    rw [Prod.mk.injEq, Except.ok.injEq] at saved
    obtain ⟨rfl, rfl⟩ := saved
    obtain ⟨_, first, ensured, ended⟩ := bind_start_eq_ok.mp ended
    obtain ⟨file, second, found, ended⟩ := bind_start_eq_ok.mp ended
    obtain ⟨_, third, written, ended⟩ := bind_start_eq_ok.mp ended
    obtain ⟨_, fourth, printed, ended⟩ := bind_start_eq_ok.mp ended
    have ensuredAdds :=
      generator.output.adds_ensureCredentials generator.language host
    have foundAdds :=
      generator.output.adds_workflowFile workflow generator.language first
    have printedKeeps :=
      (Reports.print ("✓ Arquivo gerado: " ++ file.text)).files_eq third
    rw [ensured] at ensuredAdds
    rw [found] at foundAdds
    rw [printed] at printedKeeps
    cases ended
    obtain ⟨text, named, fileIs⟩ :=
      Output.returns_workflowFile _ _ _ first second file found
    rw [← fileFor] at fileIs
    rw [write, start_writeFile] at written
    split at written
    · rename_i files wrote
      cases noFault : second.files.deviceFault? file with
      | some cause =>
          rw [noFault] at written
          cases written
      | none =>
          rw [noFault] at written
          cases written
          obtain ⟨place, located, notDirectory, filesAre⟩ :=
            FileTree.write_eq_ok wrote
          rw [FileTree.arriving_of_deviceFault? located noFault] at filesAre
          exact ⟨text, second.files, place, named, ensuredAdds.trans foundAdds,
            fileIs ▸ located, notDirectory, printedKeeps.trans filesAre⟩
    · cases written
  · split at saved
    · cases saved
    · obtain ⟨_, _, _, ended⟩ := bind_start_eq_ok.mp saved
      cases ended

/--
Two workflows that are saved one after the other share a file if and only if
their names have the same underscored words.  The file of the first then holds
the code of the second, and otherwise it still holds its own.
-/
theorem save_save_read_iff
    {generator : Generator}
    {host between after : Host}
    {first second : Value}
    {firstName secondName firstCode secondCode : String}
    (firstNamed : first.get "name" (.text "workflow") = .ok (.text firstName))
    (secondNamed : second.get "name" (.text "workflow") =
      .ok (.text secondName))
    (firstSaved : (generator.save first (.text firstCode)).start host =
      (.ok true, between))
    (secondSaved : (generator.save second (.text secondCode)).start between =
      (.ok true, after)) :
    between.files.read (generator.fileFor firstName) = .ok (.text firstCode) ∧
    after.files.read (generator.fileFor secondName) = .ok (.text secondCode) ∧
    (generator.fileFor firstName = generator.fileFor secondName ↔
      Naming.underscoredWords firstName.toList =
        Naming.underscoredWords secondName.toList) ∧
    (after.files.read (generator.fileFor firstName) = .ok (.text firstCode) ↔
      Naming.underscoredWords firstName.toList ≠
        Naming.underscoredWords secondName.toList ∨
        firstCode = secondCode) := by
  obtain ⟨_, _, firstPlace, isFirst, _, located, firstNotDirectory,
    betweenIs⟩ :=
    save_eq_true firstSaved
  obtain ⟨_, prepared, secondPlace, isSecond, added, secondLocated,
    secondNotDirectory, afterIs⟩ := save_eq_true secondSaved
  obtain rfl := Value.text.inj (Except.ok.inj (isFirst.symm.trans firstNamed))
  obtain rfl := Value.text.inj (Except.ok.inj (isSecond.symm.trans secondNamed))
  -- What the first save wrote is still there when the second one is about to
  -- write.
  have firstWritten :
      between.files.entryAt? firstPlace = some (.file (.text firstCode)) := by
    rw [betweenIs, FileTree.entryAt?_setAt firstNotDirectory, if_pos rfl]
  have betweenLocated :
      between.files.locate (generator.fileFor _) = .ok firstPlace :=
    betweenIs ▸ FileTree.locate_setAt_file firstNotDirectory located
  have firstKept := added.kept _ _ firstWritten
  have firstLocated := added.locate betweenLocated
  have samePlace :=
    (FileTree.locate_join_inj (Output.isComponent_workflowName _ _)
    (Output.isComponent_workflowName _ _) firstLocated secondLocated).trans
      (Output.workflowName_eq_iff _ _ _)
  have entryIs : ∀ place, after.files.entryAt? place =
      if place = secondPlace then some (.file (.text secondCode))
      else prepared.entryAt? place := by
    intro place
    rw [afterIs, FileTree.entryAt?_setAt secondNotDirectory]
  have leads : ∀ {path place}, prepared.locate path = .ok place →
      after.files.locate path = .ok place := fun located =>
    afterIs ▸ FileTree.locate_setAt_file secondNotDirectory located
  refine ⟨FileTree.read_of_locate betweenLocated firstWritten, ?_, ?_, ?_⟩
  · refine FileTree.read_of_locate (leads secondLocated) ?_
    rw [entryIs, if_pos rfl]
  · rw [fileFor, fileFor, Path.join_component _
      (Output.isComponent_workflowName _ _),
      Path.join_component _ (Output.isComponent_workflowName _ _),
      Path.mk.injEq,
      List.append_cancel_left_eq, List.singleton_inj,
      Output.workflowName_eq_iff]
    exact and_iff_right rfl
  · by_cases same : firstPlace = secondPlace
    · have overwritten : after.files.entryAt? firstPlace =
          some (.file (.text secondCode)) := by
        rw [entryIs, if_pos same]
      rw [FileTree.read_of_locate (leads firstLocated) overwritten]
      simp [samePlace.mp same, eq_comm]
    · have kept :
          after.files.entryAt? firstPlace = some (.file (.text firstCode)) := by
        rw [entryIs, if_neg same, firstKept]
      exact iff_of_true (FileTree.read_of_locate (leads firstLocated) kept)
        (.inl fun sameWords => same (samePlace.mpr sameWords))

/-- Surroundings with nothing but the directory for output. -/
def preparedHost : Host :=
  ((make .standard Language.php.code).start
    ⟨.empty "/home", [], [], ⟨[]⟩, [], "", .asAdded⟩).2

/-- The surroundings after a workflow with a name is saved. -/
def afterSaving (name code : String) (host : Host) : Host :=
  (((freshGenerator .php).save (.object [("name", .text name)])
    (.text code)).start host).2

theorem saved_slash :
    ((freshGenerator .php).save (.object [("name", .text "a/b")])
      (.text "one")).start preparedHost =
      (.ok true, afterSaving "a/b" "one" preparedHost) :=
  Prod.ext (eq_ok_of_toOption (by decide +kernel)) rfl

theorem saved_colon :
    ((freshGenerator .php).save (.object [("name", .text "a:b")])
        (.text "two")).start (afterSaving "a/b" "one" preparedHost) =
      (.ok true, afterSaving "a:b" "two"
        (afterSaving "a/b" "one" preparedHost)) :=
  Prod.ext (eq_ok_of_toOption (by decide +kernel)) rfl

/-- Workflows that are called `a/b` and `a:b` are saved one after the other. -/
theorem save_slash_save_colon_read_iff :
    ∃ between after,
      ((freshGenerator .php).save (.object [("name", .text "a/b")])
        (.text "one")).start preparedHost = (.ok true, between) ∧
      ((freshGenerator .php).save (.object [("name", .text "a:b")])
        (.text "two")).start between = (.ok true, after) ∧
      between.files.read ((freshGenerator .php).fileFor "a/b") =
        .ok (.text "one") ∧
      after.files.read ((freshGenerator .php).fileFor "a:b") =
        .ok (.text "two") ∧
      ((freshGenerator .php).fileFor "a/b" =
        (freshGenerator .php).fileFor "a:b" ↔
        Naming.underscoredWords "a/b".toList =
          Naming.underscoredWords "a:b".toList) ∧
      (after.files.read ((freshGenerator .php).fileFor "a/b") =
        .ok (.text "one") ↔
        Naming.underscoredWords "a/b".toList ≠
          Naming.underscoredWords "a:b".toList ∨ "one" = "two") :=
  ⟨_, _, saved_slash, saved_colon,
    save_save_read_iff rfl rfl saved_slash saved_colon⟩

/--
The names `a/b` and `a:b` differ, and yet the second workflow takes the place
of the first: both are saved as `a_b`.
-/
theorem save_colon_overwrites_slash :
    ∃ between after,
      ((freshGenerator .php).save (.object [("name", .text "a/b")])
        (.text "one")).start preparedHost = (.ok true, between) ∧
      ((freshGenerator .php).save (.object [("name", .text "a:b")])
        (.text "two")).start between = (.ok true, after) ∧
      between.files.read ((freshGenerator .php).fileFor "a/b") =
        .ok (.text "one") ∧
      after.files.read ((freshGenerator .php).fileFor "a/b") =
        .ok (.text "two") :=
  ⟨_, _, saved_slash, saved_colon, eq_ok_of_toOption (by decide +kernel),
    eq_ok_of_toOption (by decide +kernel)⟩

end Class.Generator

end Flowgen
