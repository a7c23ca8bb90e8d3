import Flowgen.Output
import Flowgen.Proofs.Following

namespace Flowgen

/-!
# The names of saved files

The name of a workflow becomes a file name word by word: its words are joined by
underscores, and an underscore stands for each forbidden character in them.  The
result has no slash, so it adds one component to a path.
-/

namespace Text

theorem replaceAll_singleton
    (old new : Char)
    (text : List Char) :
    replaceAll [old] [new] text =
      text.map fun character => if character = old then new else character := by
  induction text with
  | nil =>
      rfl
  | cons first text inductionHypothesis =>
      by_cases same : first = old
      · rw [List.map_cons, if_pos same, ← inductionHypothesis, same]
        exact replaceAll_append_self (List.cons_ne_nil old [])
      · have elsewhere : ¬ [old] <+: first :: text := by
          simp [List.cons_prefix_cons, Ne.symm same]
        rw [replaceAll_cons elsewhere, List.map_cons, if_neg same,
          inductionHypothesis]

theorem map_intercalate
    (change : Char → Char)
    (separator : List Char)
    (pieces : List (List Char)) :
    (List.intercalate separator pieces).map change =
      List.intercalate (separator.map change)
        (pieces.map (List.map change)) := by
  induction pieces with
  | nil =>
      rfl
  | cons piece pieces inductionHypothesis =>
      cases pieces with
      | nil =>
          simp
      | cons next pieces =>
          rw [List.map_cons, List.map_cons, List.intercalate_cons_cons,
            List.intercalate_cons_cons,
            List.map_append, List.map_append, inductionHypothesis,
            List.map_cons]

/-- Runs stay runs if no character becomes a separator or stops being one. -/
theorem runsOutside_map
    {isSeparator : Char → Bool}
    {change : Char → Char}
    (same : ∀ character, isSeparator (change character) = isSeparator character)
    (text : List Char) :
    runsOutside isSeparator (text.map change) =
      (runsOutside isSeparator text).map (List.map change) := by
  have pieces : splitWhere isSeparator (text.map change) =
      (splitWhere isSeparator text).map (List.map change) := by
    induction text with
    | nil =>
        rfl
    | cons first text inductionHypothesis =>
        rw [List.map_cons, splitWhere, splitWhere, same, inductionHypothesis]
        split
        · rfl
        · cases splitWhere isSeparator text <;> rfl
  rw [runsOutside, pieces, List.filter_map]
  congr 2
  funext run
  simp

end Text

namespace Naming

/-- A character of a file name: an underscore for each forbidden character. -/
def underscored (character : Char) : Char :=
  if character ∈ forbiddenCharacters then '_' else character

/--
The words of a text with underscores between them and for all that is
forbidden in them.
-/
def underscoredWords (text : List Char) : List Char :=
  List.intercalate ['_'] ((Text.wordsOf text).map (List.map underscored))

theorem isBlank_underscored
    (character : Char) :
    Text.isBlank (underscored character) = Text.isBlank character := by
  have notBlank : ∀ forbidden ∈ forbiddenCharacters,
      Text.isBlank forbidden = false := by decide
  unfold underscored
  split
  · rename_i isForbidden
    rw [notBlank character isForbidden]
    decide
  · rfl

/-- Replacing characters one after the other replaces each where it stands. -/
theorem foldl_replaceAll
    {characters : List Char}
    (notReplaced : '_' ∉ characters)
    (text : List Char) :
    characters.foldl (fun text character =>
      Text.replaceAll [character] ['_'] text) text =
      text.map fun character =>
      if character ∈ characters then '_' else character := by
  induction characters generalizing text with
  | nil =>
      simp
  | cons first characters inductionHypothesis =>
      obtain ⟨notFirst, notOthers⟩ :=
        not_or.mp (List.mem_cons.not.mp notReplaced)
      rw [List.foldl_cons, inductionHypothesis notOthers,
        Text.replaceAll_singleton, List.map_map]
      apply List.map_congr_left
      intro character _
      by_cases same : character = first
      · simp [same]
      · simp [same]

/-- A file name is made of the words of a text. -/
theorem safeName_eq
    (text : List Char) :
    safeName text = underscoredWords text := by
  have replaced : forbiddenReplaced text = text.map underscored :=
    foldl_replaceAll (by decide) text
  have words : Text.wordsOf (text.map underscored) =
      (Text.wordsOf text).map (List.map underscored) :=
    Text.runsOutside_map isBlank_underscored text
  have noSpace : ∀ word ∈ Text.wordsOf (text.map underscored), ' ' ∉ word := by
    intro word isWord member
    have isPiece := (List.mem_filter.mp isWord).1
    exact absurd (Text.not_isSeparator_of_mem_splitWhere isPiece ' ' member)
      (by decide)
  have kept : (Text.wordsOf (text.map underscored)).map
      (List.map fun character => if character = ' ' then '_' else character) =
        Text.wordsOf (text.map underscored) := by
    refine (List.map_congr_left fun word isWord => ?_).trans (List.map_id _)
    refine (List.map_congr_left fun character member => ?_).trans
      (List.map_id word)
    have notSpace : character ≠ ' ' :=
      fun isSpace => noSpace word isWord (isSpace ▸ member)
    exact if_neg notSpace
  rw [safeName, underscoredWords, replaced, ← words, Text.replaceAll_singleton,
    Text.map_intercalate, kept]
  rfl

theorem slash_not_mem_safeName
    (text : List Char) :
    '/' ∉ safeName text := by
  rw [safeName_eq]
  refine Text.not_mem_intercalate (by decide)
    (List.forall_mem_map.mpr fun word _ => ?_)
  intro member
  obtain ⟨character, _, isSlash⟩ := List.mem_map.mp member
  unfold underscored at isSlash
  split at isSlash
  · cases isSlash
  · rename_i notForbidden
    exact notForbidden (isSlash ▸ by decide)

end Naming

namespace Path

/-- One component of a path. -/
structure IsComponent (name : String) : Prop where
  noSlash : '/' ∉ name.toList
  notEmpty : name ≠ ""
  notHere : name ≠ "."
  notUp : name ≠ ".."

theorem splitOn_of_not_mem
    {text : List Char}
    (noSlash : '/' ∉ text) :
    Text.splitOn ['/'] text = [text] := by
  rw [Text.splitOn_singleton, List.splitOn_eq_singleton noSlash]

theorem join_component
    {name : String}
    (path : Path)
    (isComponent : IsComponent name) :
    path.join name = ⟨path.root, path.parts ++ [name]⟩ := by
  have noLeading :
      name.toList.takeWhile (fun character => character == '/') = [] := by
    have noSlash := isComponent.noSlash
    cases listed : name.toList with
    | nil =>
        rfl
    | cons first rest =>
        rw [listed] at noSlash
        exact List.takeWhile_cons_of_neg
          (by simpa using Ne.symm (List.ne_of_not_mem_cons noSlash))
  have parts : partsOf name.toList = [name] := by
    rw [partsOf, splitOn_of_not_mem isComponent.noSlash]
    simp [isComponent.notEmpty, isComponent.notHere]
  have noRoot : rootOf name.toList = "" := by
    rw [rootOf, noLeading]
    rfl
  simp [join, ofText, noRoot, parts]

end Path

namespace Output

open Naming

/-- The name of the file for a workflow that goes by a text. -/
def workflowName (language text : String) : String :=
  String.ofList (safeName text.toList) ++ Language.extensionOr ".txt" language

theorem extensionOr_mem
    {fallback : String}
    (isKnown : fallback ∈ [".php", ".txt"])
    (language : String) :
    Language.extensionOr fallback language ∈
    [".php", ".py", ".js", ".txt"] := by
  unfold Language.extensionOr
  split
  · rename_i language _
    cases language <;> decide
  · revert fallback
    decide

theorem isComponent_workflowName
    (language text : String) :
    Path.IsComponent (workflowName language text) := by
  have isKnown :=
    extensionOr_mem (by decide : ".txt" ∈ [".php", ".txt"]) language
  have noSlash : ∀ extension ∈ [".php", ".py", ".js", ".txt"],
      '/' ∉ extension.toList := by decide
  have long : ∀ extension ∈ [".php", ".py", ".js", ".txt"],
      2 < extension.toList.length := by decide
  have notShort : ∀ short : String, short.toList.length ≤ 2 →
      workflowName language text ≠ short := by
    rintro _ isShort rfl
    rw [workflowName, String.toList_append, List.length_append] at isShort
    have := long _ isKnown
    omega
  refine ⟨?_, notShort _ (by decide), notShort _ (by decide),
    notShort _ (by decide)⟩
  rw [workflowName, String.toList_append, String.toList_ofList, List.mem_append]
  exact not_or.mpr ⟨slash_not_mem_safeName _, noSlash _ isKnown⟩

/--
Workflows share the name of their files if their names have the same
underscored words.
-/
theorem workflowName_eq_iff
    (language first second : String) :
    workflowName language first = workflowName language second ↔
      underscoredWords first.toList = underscoredWords second.toList := by
  rw [workflowName, workflowName, ← String.toList_inj, String.toList_append,
    String.toList_append,
    List.append_left_inj, String.toList_ofList, String.toList_ofList,
    safeName_eq, safeName_eq]

end Output

end Flowgen
