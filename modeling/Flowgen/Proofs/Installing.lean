import Flowgen.Proofs.TemplateFiles

namespace Flowgen

/-!
# Installing files

Files that are put into an empty directory are there afterwards, in the
directories that lead to them, and nothing else is.
-/

namespace FileTree

variable {tree : FileTree} {names place other : List String} {entry : Entry}

theorem lookup_setIn
    (entries : List (List String × Entry)) :
    (setIn names entry entries).lookup place =
      if place = names then some entry else entries.lookup place := by
  induction entries with
  | nil =>
      by_cases same : place = names
      · simp [setIn, same]
      · simp [setIn, List.lookup_cons, same, beq_eq_false_iff_ne.mpr same]
  | cons head entries inductionHypothesis =>
      rw [setIn]
      by_cases isHead : head.1 = names
      · rw [if_pos isHead, List.lookup_cons, List.lookup_cons, isHead]
        by_cases same : place = names
        · simp [same]
        · simp [same, beq_eq_false_iff_ne.mpr same]
      · rw [if_neg isHead, List.lookup_cons, List.lookup_cons,
          inductionHypothesis]
        by_cases same : place = names
        · simp [same, beq_eq_false_iff_ne.mpr (Ne.symm isHead)]
        · simp [same]

/-- Setting an entry changes nothing elsewhere. -/
theorem entry?_set
    (notNil : names ≠ []) :
    entry? (tree.set names entry) place =
      if place = names then some entry else tree.entry? place := by
  unfold entry? set
  by_cases isTop : place = []
  · simp [isTop, Ne.symm notNil]
  · simp only [List.isEmpty_iff, isTop, if_false, lookup_setIn]

/-- Two trees that differ at most in what lies below the top. -/
def SameAround (before after : FileTree) : Prop :=
  after = { before with entries := after.entries }

namespace SameAround

variable {before between after : FileTree}

theorem refl
    (tree : FileTree) :
    tree.SameAround tree :=
  rfl

theorem trans
    (first : before.SameAround between)
    (second : between.SameAround after) :
    before.SameAround after := by
  unfold SameAround at *
  rw [second, first]

theorem set
    (tree : FileTree)
    (names : List String)
    (entry : Entry) :
    tree.SameAround (tree.set names entry) :=
  rfl

theorem home_eq
    (same : before.SameAround after) :
    after.home = before.home := by
  rw [same]

theorem set_left
    (same : before.SameAround after)
    (names : List String)
    (entry : Entry) :
    SameAround (before.set names entry) after :=
  same

theorem locked_eq
    (same : before.SameAround after) :
    after.locked = before.locked := by
  rw [same]

theorem setback?_eq
    (same : before.SameAround after)
    (place : Place) :
    after.setback? place = before.setback? place := by
  rw [same]
  rfl

theorem below_eq
    (same : before.SameAround after)
    (names : List String) :
    after.below names = before.below names := by
  rw [below, top, same.home_eq]
  rfl

theorem namesTo?_eq
    (same : before.SameAround after)
    (place : Place) :
    after.namesTo? place = before.namesTo? place := by
  rw [same]
  rfl

theorem rootPlace_eq
    (same : before.SameAround after)
    (root : String) :
    after.rootPlace root = before.rootPlace root := by
  rw [same]
  rfl

theorem outer?_eq
    (same : before.SameAround after)
    (place : Place) :
    after.outer? place = before.outer? place := by
  rw [same]
  rfl

theorem arriving_eq
    (same : before.SameAround after)
    (place : Place)
    (content : Content) :
    after.arriving place content = before.arriving place content := by
  rw [same]
  rfl

theorem withDirectoriesFrom
    (tree : FileTree)
    (place names : List String) :
    tree.SameAround (tree.withDirectoriesFrom place names) := by
  induction names generalizing tree place with
  | nil =>
      exact refl tree
  | cons name names inductionHypothesis =>
      rw [FileTree.withDirectoriesFrom]
      refine trans ?_ (inductionHypothesis _ _)
      split
      · exact refl tree
      · exact set tree _ _

theorem withFile
    (tree : FileTree)
    (names : List String)
    (content : Content) :
    tree.SameAround (tree.withFile names content) :=
  (withDirectoriesFrom tree [] names.dropLast).trans (set _ _ _)

end SameAround

theorem entry?_withDirectory
    (notNil : names ≠ []) :
    entry? (if (tree.entry? names).isSome then tree
      else tree.set names .directory) place =
      if place = names ∧ tree.entry? names =
        none then some .directory else tree.entry? place := by
  cases isThere : tree.entry? names with
  | some entry =>
      simp
  | none =>
      simp [entry?_set notNil]

theorem entry?_withDirectoriesFrom_of_some
    (isThere : tree.entry? other = some entry) :
    entry? (tree.withDirectoriesFrom place names) other = some entry := by
  induction names generalizing tree place with
  | nil =>
      exact isThere
  | cons name names inductionHypothesis =>
      apply inductionHypothesis
      rw [entry?_withDirectory (by simp), if_neg ?_, isThere]
      rintro ⟨rfl, absent⟩
      rw [isThere] at absent
      cases absent

theorem exists_entry?_withDirectoriesFrom
    {front : List String}
    (isFront : front <+: names)
    (notNil : front ≠ []) :
    ∃ entry, entry? (tree.withDirectoriesFrom place names) (place ++ front) =
      some entry := by
  induction names generalizing tree place front with
  | nil =>
      exact absurd (List.prefix_nil.mp isFront) notNil
  | cons name names inductionHypothesis =>
      obtain ⟨head, front, rfl⟩ := List.exists_cons_of_ne_nil notNil
      obtain ⟨rfl, isRest⟩ := List.cons_prefix_cons.mp isFront
      have whole : place ++ head :: front = place ++ [head] ++ front := by simp
      rw [withDirectoriesFrom, whole]
      cases front with
      | nil =>
          rw [List.append_nil]
          cases isThere : tree.entry? (place ++ [head]) with
          | none =>
              refine ⟨.directory, entry?_withDirectoriesFrom_of_some ?_⟩
              rw [← isThere, entry?_withDirectory (by simp),
                if_pos ⟨rfl, isThere⟩]
          | some entry =>
              refine ⟨entry, entry?_withDirectoriesFrom_of_some ?_⟩
              rw [← isThere, entry?_withDirectory (by simp),
                if_neg (by simp [isThere])]
      | cons next front =>
          exact inductionHypothesis isRest (by simp)

theorem of_entry?_withDirectoriesFrom
    (isThere : entry? (tree.withDirectoriesFrom place names) other =
      some entry) :
    tree.entry? other = some entry ∨
      entry = .directory ∧ ∃ front, front <+: names ∧
      other = place ++ front := by
  induction names generalizing tree place with
  | nil =>
      exact .inl isThere
  | cons name names inductionHypothesis =>
      rcases inductionHypothesis isThere with
        before | ⟨isDirectory, front, isFront, rfl⟩
      · rw [entry?_withDirectory (by simp)] at before
        split at before
        · rename_i made
          cases before
          exact .inr ⟨rfl, [name],
            List.cons_prefix_cons.mpr ⟨rfl, List.nil_prefix⟩, made.1⟩
        · exact .inl before
      · refine .inr ⟨isDirectory, name :: front,
          List.cons_prefix_cons.mpr ⟨rfl, isFront⟩, ?_⟩
        rw [List.append_assoc, List.singleton_append]

/--
Files that are in a tree, with the directories that lead to them and nothing
else.
-/
structure Holds (tree : FileTree) (files : List (List String × String)) :
  Prop where
  isFile : ∀ file ∈ files, tree.entry? file.1 = some (.file (.text file.2))
  isDirectory : ∀ file ∈ files, ∀ place, place <+: file.1.dropLast →
    tree.entry? place = some .directory
  noOthers : ∀ place entry, tree.entry? place = some entry →
    (∃ file ∈ files, place = file.1) ∨
      entry = .directory ∧ (place = [] ∨
        ∃ file ∈ files, place <+: file.1.dropLast)

/-- No file lies where another one lies, or below it. -/
def Apart (first second : List String × String) : Prop :=
  ¬ first.1 <+: second.1 ∧ ¬ second.1 <+: first.1

instance (first second : List String × String) :
  Decidable (Apart first second) :=
  inferInstanceAs (Decidable (_ ∧ _))

theorem holds_empty
    (home : String) :
    (FileTree.empty home).Holds [] := by
  refine ⟨by simp, by simp, fun place entry isThere => ?_⟩
  unfold entry? empty at isThere
  split at isThere
  · rename_i isTop
    cases isThere
    exact .inr ⟨rfl, .inl (List.isEmpty_iff.mp isTop)⟩
  · cases isThere

theorem Holds.withFile
    {files : List (List String × String)}
    {file : List String × String}
    (holds : tree.Holds files)
    (notNil : file.1 ≠ [])
    (apart : ∀ other ∈ files, Apart other file) :
    (tree.withFile file.1 (.text file.2)).Holds (files ++ [file]) := by
  have entryIs : ∀ place, entry? (tree.withFile file.1 (.text file.2)) place =
      if place = file.1 then some (.file (.text file.2))
      else entry? (tree.withDirectoriesFrom [] file.1.dropLast) place :=
    fun place => entry?_set notNil
  have notBelow : ∀ place, place <+: file.1.dropLast → place ≠ file.1 := by
    rintro place isFront rfl
    have shorter := isFront.length_le
    have := List.length_pos_of_ne_nil notNil
    rw [List.length_dropLast] at shorter
    omega
  have noFileOnTheWay : ∀ other ∈ files, ¬ other.1 <+: file.1.dropLast :=
    fun other member isFront =>
      (apart other member).1 (isFront.trans (List.dropLast_prefix _))
  refine ⟨?_, ?_, ?_⟩
  · intro other member
    rw [entryIs]
    rcases List.mem_append.mp member with inFiles | isNew
    · have notHere : other.1 ≠ file.1 :=
        fun same => (apart other inFiles).1 (same ▸ List.prefix_refl _)
      rw [if_neg notHere]
      exact entry?_withDirectoriesFrom_of_some (holds.isFile other inFiles)
    · rw [List.mem_singleton.mp isNew, if_pos rfl]
  · intro other member place isFront
    rw [entryIs]
    rcases List.mem_append.mp member with inFiles | isNew
    · have notHere : place ≠ file.1 := by
        rintro rfl
        exact (apart other inFiles).2 (isFront.trans (List.dropLast_prefix _))
      rw [if_neg notHere]
      exact entry?_withDirectoriesFrom_of_some
        (holds.isDirectory other inFiles place isFront)
    · rw [List.mem_singleton.mp isNew] at isFront
      rw [if_neg (notBelow place isFront)]
      by_cases isTop : place = []
      · rw [isTop]
        rfl
      · obtain ⟨entry, isThere⟩ :=
          exists_entry?_withDirectoriesFrom isFront isTop
        rw [List.nil_append] at isThere
        rw [isThere]
        rcases of_entry?_withDirectoriesFrom isThere with before | ⟨rfl, _⟩
        · rcases holds.noOthers place entry before with
            ⟨other, inFiles, rfl⟩ | ⟨rfl, _⟩
          · exact absurd isFront (noFileOnTheWay other inFiles)
          · rfl
        · rfl
  · intro place entry isThere
    rw [entryIs] at isThere
    split at isThere
    · rename_i isHere
      exact .inl ⟨file, by simp, isHere⟩
    · rcases of_entry?_withDirectoriesFrom isThere with
        before | ⟨isNew, front, isFront, rfl⟩
      · rcases holds.noOthers place entry before with
          ⟨other, inFiles, same⟩ | ⟨isOld, isTop | way⟩
        · exact .inl ⟨other, List.mem_append_left _ inFiles, same⟩
        · exact .inr ⟨isOld, .inl isTop⟩
        · obtain ⟨other, inFiles, isFront⟩ := way
          exact .inr ⟨isOld, .inr
            ⟨other, List.mem_append_left _ inFiles, isFront⟩⟩
      · exact .inr ⟨isNew, .inr ⟨file, by simp, isFront⟩⟩

/-- Files that are apart from each other can all be put into a tree. -/
theorem Holds.withFiles
    {done files : List (List String × String)}
    (holds : tree.Holds done)
    (notNil : ∀ file ∈ files, file.1 ≠ [])
    (apart : (done ++ files).Pairwise Apart) :
    (files.foldl (fun tree file => tree.withFile file.1 (.text file.2))
      tree).Holds (done ++ files) := by
  induction files generalizing tree done with
  | nil =>
      rwa [List.append_nil]
  | cons file files inductionHypothesis =>
      obtain ⟨fileNotNil, restNotNil⟩ := List.forall_mem_cons.mp notNil
      rw [List.append_cons] at apart ⊢
      refine inductionHypothesis
        (holds.withFile fileNotNil fun other member => ?_) restNotNil apart
      have firstApart := (List.pairwise_append.mp apart).1
      exact (List.pairwise_append.mp firstApart).2.2 other member file (by simp)

end FileTree

namespace Template

theorem sameAround_install
    (tree : FileTree) :
    tree.SameAround (install tree) := by
  unfold install
  generalize shippedFiles = files
  induction files generalizing tree with
  | nil =>
      exact .refl tree
  | cons file files inductionHypothesis =>
      exact (FileTree.SameAround.withFile tree _ _).trans
        (inductionHypothesis _)

/--
A directory with just the shipped files, and nothing around it, is equipped.
-/
theorem equipped_install
    {home : String}
    (plainHome : ∀ name ∈ Path.partsOf home.toList, '\x7b' ∉ name.toList) :
    Equipped (install (.empty home)) := by
  have apart : shippedFiles.Pairwise FileTree.Apart := by
    decide +kernel
  have notNil : ∀ file ∈ shippedFiles, file.1 ≠ [] := by
    decide +kernel
  have holds : (install (.empty home)).Holds shippedFiles :=
    (FileTree.holds_empty home).withFiles notNil apart
  have around := sameAround_install (.empty home)
  have topIs : (install (.empty home)).top = Path.partsOf home.toList := by
    rw [FileTree.top, around.home_eq]
    rfl
  have above :
      ∀ place entry, (install (.empty home)).outer? place = some entry →
      entry = .directory ∧ place <+: Path.partsOf home.toList := by
    intro place entry isThere
    rw [around.outer?_eq, FileTree.outer?] at isThere
    split at isThere
    · rename_i isAbove
      cases isThere
      exact ⟨rfl, List.isPrefixOf_iff_prefix.mp isAbove⟩
    · cases isThere
  refine ⟨holds.isFile, holds.isDirectory, ?_, ?_⟩
  · intro place name content isThere _
    obtain ⟨names, placeIs, isThere⟩ | ⟨_, isThere⟩ :=
      FileTree.entryAt?_cases isThere
    · rcases holds.noOthers _ _ isThere with
        ⟨file, member, rfl⟩ | ⟨isDirectory, _⟩
      · exact ⟨file, member, placeIs⟩
      · cases isDirectory
    · cases (above _ _ isThere).1
  · intro place name isThere
    obtain ⟨names, placeIs, isThere⟩ | ⟨_, isThere⟩ :=
      FileTree.entryAt?_cases isThere
    · have inPlace : name ∈ Path.partsOf home.toList ++ names := by
        have inPlace : name ∈ place ++ [name] := by simp
        rwa [placeIs, FileTree.below, topIs] at inPlace
      rcases List.mem_append.mp inPlace with inHome | inNames
      · exact plainHome name inHome
      · rcases holds.noOthers _ _ isThere with
          ⟨file, member, rfl⟩ | ⟨_, rfl | ⟨file, member, way⟩⟩
        · rw [holds.isFile file member] at isThere
          cases isThere
        · cases inNames
        · exact brace_not_mem_shippedFiles file member name
            ((way.trans (List.dropLast_prefix _)).subset inNames)
    · refine plainHome name ((above _ _ isThere).2.subset ?_)
      exact List.mem_append_right place (List.mem_singleton.mpr rfl)

end Template

end Flowgen
