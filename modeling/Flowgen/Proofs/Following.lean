import Flowgen.Proofs.Computations
import Flowgen.Proofs.Searching

namespace Flowgen

/-!
# Following paths

A path that leads to a file goes through directories, and every part of it is
the name of a directory on the way or of the file itself.
-/

namespace Path

/-- A character other than a slash is in one of the pieces between slashes. -/
theorem exists_mem_splitOn
    {text : List Char}
    {character : Char}
    (member : character ∈ text)
    (notSlash : character ≠ '/') :
    ∃ piece ∈ Text.splitOn ['/'] text, character ∈ piece := by
  by_contra isNowhere
  have outside : character ∉ List.intercalate ['/'] (Text.splitOn ['/'] text) :=
    Text.not_mem_intercalate (by simpa using notSlash)
      (by simpa using isNowhere)
  rw [Text.splitOn_singleton, List.intercalate_splitOn] at outside
  exact outside member

/--
What stands at the end of a text without a slash stands at the end of its last
piece.
-/
theorem splitOn_append
    (text : List Char)
    {ending : List Char}
    (noSlash : '/' ∉ ending) :
    ∃ pieces last, Text.splitOn ['/'] (text ++ ending) =
      pieces ++ [last ++ ending] := by
  rw [Text.splitOn_singleton]
  by_cases member : '/' ∈ text
  · obtain ⟨front, last, rfl, noneInLast⟩ := Text.exists_last member
    have noneBehind : '/' ∉ last ++ ending := by simp [noneInLast, noSlash]
    refine ⟨front.splitOn '/', last, ?_⟩
    rw [List.append_assoc, List.cons_append, List.splitOn_append_cons_self,
      List.splitOn_eq_singleton noneBehind]
  · have nowhere : '/' ∉ text ++ ending := by simp [member, noSlash]
    exact ⟨[], text, List.splitOn_eq_singleton nowhere⟩

/-- The last part of a path whose text has an ending that names a file. -/
theorem partsOf_append
    (text : List Char)
    {ending : List Char}
    (noSlash : '/' ∉ ending)
    (long : 1 < ending.length) :
    ∃ parts last, partsOf (text ++ ending) =
      parts ++ [String.ofList (last ++ ending)] := by
  obtain ⟨pieces, last, whole⟩ := splitOn_append text noSlash
  have notShort : ∀ short : List Char, short.length ≤ 1 →
      String.ofList (last ++ ending) ≠ String.ofList short := by
    intro short isShort same
    have lengths := congrArg List.length (String.ofList_injective same)
    rw [List.length_append] at lengths
    omega
  have kept : (String.ofList (last ++ ending) != "" &&
      String.ofList (last ++ ending) != ".") = true := by
    rw [Bool.and_eq_true, bne_iff_ne, bne_iff_ne]
    exact ⟨notShort [] (by decide), notShort ['.'] (by decide)⟩
  refine ⟨(pieces.map String.ofList).filter fun part => part != "" &&
    part != ".", last, ?_⟩
  rw [partsOf, whole, List.map_append, List.filter_append, List.map_singleton]
  simp only [List.filter_cons, kept, if_true, List.filter_nil]

/-- A character other than a slash or a dot is in one of the parts. -/
theorem exists_mem_partsOf
    {text : List Char}
    {character : Char}
    (member : character ∈ text)
    (notSlash : character ≠ '/')
    (notDot : character ≠ '.') :
    ∃ part ∈ partsOf text, character ∈ part.toList := by
  obtain ⟨piece, isPiece, inPiece⟩ := exists_mem_splitOn member notSlash
  refine ⟨String.ofList piece, ?_, by rwa [String.toList_ofList]⟩
  rw [partsOf, List.mem_filter, Bool.and_eq_true, bne_iff_ne, bne_iff_ne]
  refine ⟨List.mem_map_of_mem isPiece, ?_, ?_⟩
  · intro isEmpty
    rw [show "" = String.ofList [] from rfl] at isEmpty
    rw [String.ofList_injective isEmpty] at inPiece
    cases inPiece
  · intro isDot
    rw [show "." = String.ofList ['.'] from rfl] at isDot
    rw [String.ofList_injective isDot, List.mem_singleton] at inPiece
    exact notDot inPiece

theorem partsOf_concat_slash
    (text : List Char) :
    partsOf (text ++ ['/']) = partsOf text := by
  have pieces :
      Text.splitOn ['/'] (text ++ ['/']) = Text.splitOn ['/'] text ++ [[]] := by
    rw [Text.splitOn_singleton, Text.splitOn_singleton,
      List.splitOn_append_cons_self]
    rfl
  rw [partsOf, pieces, List.map_append, List.filter_append]
  exact List.append_nil _

theorem join_parts
    (path : Path)
    (text : String) :
    ∃ front, (path.join text).parts = front ++ partsOf text.toList := by
  unfold join
  simp only
  split
  · exact ⟨path.parts, rfl⟩
  · exact ⟨[], rfl⟩

end Path

namespace FileTree

variable {tree : FileTree} {place final : Place} {names : List String}

theorem namesTo?_eq_some :
    tree.namesTo? place = some names ↔ place = tree.below names := by
  rw [namesTo?, List.isPrefixOf?_eq_some_iff_append_eq, below, eq_comm]

@[simp]
theorem namesTo?_below
    (tree : FileTree)
    (names : List String) :
    tree.namesTo? (tree.below names) = some names :=
  namesTo?_eq_some.mpr rfl

theorem below_injective
    (tree : FileTree) :
    Function.Injective tree.below :=
  fun _ _ same => List.append_cancel_left same

@[simp]
theorem entryAt?_below
    (tree : FileTree)
    (names : List String) :
    tree.entryAt? (tree.below names) = tree.entry? names := by
  rw [entryAt?, namesTo?_below]

@[simp]
theorem setAt_below
    (tree : FileTree)
    (names : List String)
    (entry : Entry) :
    tree.setAt (tree.below names) entry = tree.set names entry := by
  rw [setAt, namesTo?_below]

/-- What is somewhere is below the top, or elsewhere. -/
theorem entryAt?_cases
    {entry : Entry}
    (isThere : tree.entryAt? place = some entry) :
    (∃ names, place = tree.below names ∧ tree.entry? names = some entry) ∨
      tree.namesTo? place = none ∧ tree.outer? place = some entry := by
  unfold entryAt? at isThere
  split at isThere
  · rename_i names leads
    exact .inl ⟨names, namesTo?_eq_some.mp leads, isThere⟩
  · rename_i isElsewhere
    exact .inr ⟨isElsewhere, isThere⟩

theorem below_append
    (tree : FileTree)
    (front back : List String) :
    tree.below (front ++ back) = tree.below front ++ back :=
  (List.append_assoc _ _ _).symm

@[simp]
theorem below_nil
    (tree : FileTree) :
    tree.below [] = tree.top :=
  List.append_nil _

theorem child_below
    {name : String}
    (notUp : name ≠ "..") :
    child (tree.below names) name = tree.below (names ++ [name]) := by
  rw [child, if_neg notUp, below_append]

theorem directoryFault?_eq_none :
    tree.directoryFault? place = none ↔
    tree.entryAt? place = some .directory := by
  unfold directoryFault?
  split
  · simp [*]
  · simp [*]
  · simp [*]

theorem follow_cons_of_directory
    {name : String}
    (here : tree.entryAt? place = some .directory)
    (short : name.utf8ByteSize ≤ nameLimit) :
    tree.follow place (name :: names) =
      tree.follow (child place name) names := by
  rw [follow, directoryFault?_eq_none.mpr here]
  exact if_neg (Nat.not_lt.mpr short)

theorem follow_below
    {place : List String}
    (fits : ∀ name ∈ names, name ≠ ".." ∧ name.utf8ByteSize ≤ nameLimit)
    (directories : ∀ front, front <+: names.dropLast →
      tree.entry? (place ++ front) = some .directory)
    (notNil : names ≠ []) :
    tree.follow (tree.below place) names =
      .ok (tree.below (place ++ names)) := by
  induction names generalizing place with
  | nil =>
      exact absurd rfl notNil
  | cons name names inductionHypothesis =>
      obtain ⟨⟨notUp, short⟩, restFits⟩ := List.forall_mem_cons.mp fits
      have here : tree.entryAt? (tree.below place) = some .directory := by
        have := directories [] List.nil_prefix
        rwa [List.append_nil, ← entryAt?_below] at this
      rw [follow_cons_of_directory here short, child_below notUp]
      cases names with
      | nil =>
          rfl
      | cons next names =>
          rw [inductionHypothesis restFits ?_ (by simp), List.append_assoc,
            List.singleton_append]
          intro front isFront
          rw [List.append_assoc, List.singleton_append]
          apply directories
          rw [List.dropLast_cons_cons]
          exact List.cons_prefix_cons.mpr ⟨rfl, isFront⟩

/-- What is followed to the end is followed up to its last name first. -/
theorem follow_concat
    {last : String}
    (followed : tree.follow place (names ++ [last]) = .ok final) :
    ∃ before, tree.follow place names = .ok before ∧
      tree.directoryFault? before = none ∧ final = child before last := by
  induction names generalizing place with
  | nil =>
      simp only [List.nil_append, follow] at followed
      split at followed
      · cases followed
      · rename_i isDirectory
        split at followed
        · cases followed
        · cases followed
          exact ⟨place, rfl, isDirectory, rfl⟩
  | cons name names inductionHypothesis =>
      rw [List.cons_append, follow] at followed
      split at followed
      · cases followed
      · rename_i isDirectory
        split at followed
        · cases followed
        · rename_i short
          obtain ⟨before, followedBefore, facts⟩ := inductionHypothesis followed
          refine ⟨before, ?_, facts⟩
          rw [follow, isDirectory]
          simp only [short, if_false]
          exact followedBefore

/-- On the way to a directory every name is that of a directory, or leads up. -/
theorem name_of_follow
    {holds : String → Prop}
    (up : holds "..")
    (named : ∀ place name,
      tree.entryAt? (place ++ [name]) = some .directory → holds name)
    (followed : tree.follow place names = .ok final)
    (isDirectory : tree.directoryFault? final = none) :
    ∀ name ∈ names, holds name := by
  induction names generalizing place with
  | nil =>
      simp
  | cons name names inductionHypothesis =>
      rw [follow] at followed
      split at followed
      · cases followed
      · split at followed
        · cases followed
        · refine List.forall_mem_cons.mpr ⟨?_, inductionHypothesis followed⟩
          have childIsDirectory :
              tree.directoryFault? (child place name) = none := by
            cases names with
            | nil =>
                cases followed
                exact isDirectory
            | cons next names =>
                rw [follow] at followed
                split at followed
                · cases followed
                · assumption
          by_cases isUp : name = ".."
          · exact isUp ▸ up
          · rw [child, if_neg isUp, directoryFault?_eq_none] at childIsDirectory
            exact named place name childIsDirectory

/--
A path to a file has the name of the file as its last part, behind
directories.
-/
theorem find_eq_file
    {path : Path}
    {parts : List String}
    {last : String}
    {content : Content}
    {holds : String → Prop}
    (partsAre : path.parts = parts ++ [last])
    (notUp : last ≠ "..")
    (up : holds "..")
    (named : ∀ place name,
      tree.entryAt? (place ++ [name]) = some .directory → holds name)
    (found : tree.find path = .ok (.file content)) :
    (∃ place, tree.entryAt? (place ++ [last]) = some (.file content)) ∧
      ∀ name ∈ parts, holds name := by
  unfold find at found
  obtain ⟨final, located, entry⟩ := bind_eq_ok.mp found
  have followed :
      tree.follow (tree.rootPlace path.root) (parts ++ [last]) = .ok final := by
    unfold locate at located
    split at located
    · cases located
    · split at located
      · cases located
      · rw [← partsAre]
        cases result : tree.follow (tree.rootPlace path.root) path.parts with
        | error cause =>
            rw [result] at located
            cases located
        | ok reached =>
            rw [result] at located
            cases located
            rfl
  obtain ⟨before, followedBefore, isDirectory, rfl⟩ := follow_concat followed
  refine ⟨⟨before, ?_⟩, name_of_follow up named followedBefore isDirectory⟩
  rw [child, if_neg notUp] at entry
  split at entry
  · rename_i isEntry
    cases entry
    exact isEntry
  · cases entry

/-- A path along directories leads to the place with its names. -/
theorem locate_below
    {path : Path}
    (fromHere : path.root = "")
    (noNull : path.parts.any (fun part => part.toList.contains '\x00') = false)
    (short : path.text.utf8ByteSize ≤ pathLimit)
    (fits : ∀ name ∈ path.parts, name ≠ ".." ∧ name.utf8ByteSize ≤ nameLimit)
    (directories : ∀ front, front <+: path.parts.dropLast →
      tree.entry? front = some .directory)
    (notNil : path.parts ≠ []) :
    tree.locate path = .ok (tree.below path.parts) := by
  have followed : tree.follow (tree.rootPlace path.root) path.parts =
      .ok (tree.below path.parts) := by
    rw [fromHere, rootPlace, if_pos rfl, ← below_nil]
    exact follow_below fits directories notNil
  rw [locate, noNull, followed, if_neg (by simp), if_neg (Nat.not_lt.mpr short)]
  rfl

theorem find_below
    {path : Path}
    {entry : Entry}
    (fromHere : path.root = "")
    (noNull : path.parts.any (fun part => part.toList.contains '\x00') = false)
    (short : path.text.utf8ByteSize ≤ pathLimit)
    (fits : ∀ name ∈ path.parts, name ≠ ".." ∧ name.utf8ByteSize ≤ nameLimit)
    (directories : ∀ front, front <+: path.parts.dropLast →
      tree.entry? front = some .directory)
    (notNil : path.parts ≠ [])
    (isEntry : tree.entry? path.parts = some entry) :
    tree.find path = .ok entry := by
  rw [find, locate_below fromHere noNull short fits directories notNil]
  simp only [bind, Except.bind, entryAt?_below, isEntry]

end FileTree

end Flowgen
