import Flowgen.Text.Search
import Mathlib.Data.List.Infix

namespace Flowgen.Text

/-!
# What searching and replacing do

The text operations, said in terms of starts and parts of texts.
-/

/-- Whether all characters of a text have a property is decided one by one. -/
instance (priority := 2000) decidableForallMem
    (property : Char → Prop)
    [DecidablePred property]
    (text : List Char) :
    Decidable (∀ character ∈ text, property character) :=
  List.decidableBAll property text

section Places

variable {pattern first second : List Char}

/--
Where something stands in two texts put together: in one of them, or across.
-/
theorem infix_append_cases
    {pattern first second : List Char}
    (found : pattern <:+: first ++ second) :
    pattern <:+: first ∨ pattern <:+: second ∨
      ∃ before after, pattern = before ++ after ∧ before ≠ [] ∧ after ≠ [] ∧
        before <:+ first ∧ after <+: second := by
  obtain ⟨left, right, whole⟩ := found
  rw [List.append_assoc] at whole
  rcases List.append_eq_append_iff.mp whole with
    ⟨rest, firstIs, patternIs⟩ | ⟨rest, leftIs, secondIs⟩
  · rcases List.append_eq_append_iff.mp patternIs with
      ⟨more, restIs, _⟩ | ⟨more, splitPattern, secondIs⟩
    · refine Or.inl ⟨left, more, ?_⟩
      rw [firstIs, restIs, List.append_assoc]
    · by_cases noRest : rest = []
      · refine Or.inr (Or.inl ⟨[], right, ?_⟩)
        rw [secondIs, splitPattern, noRest]
        simp
      · by_cases noMore : more = []
        · refine Or.inl ⟨left, [], ?_⟩
          rw [firstIs, splitPattern, noMore]
          simp
        · exact Or.inr (Or.inr ⟨rest, more, splitPattern, noRest, noMore,
            ⟨left, firstIs.symm⟩, ⟨right, secondIs.symm⟩⟩)
  · refine Or.inr (Or.inl ⟨rest, right, ?_⟩)
    rw [secondIs, List.append_assoc]

/--
A text that starts with a pattern either has it whole or has a part of it.
-/
theorem prefix_append_cases
    (starts : pattern <+: first ++ second) :
    pattern <+: first ∨ ∃ rest, pattern = first ++ rest ∧ rest ≠ [] ∧
    rest <+: second := by
  obtain ⟨more, whole⟩ := starts
  rcases List.append_eq_append_iff.mp whole with
    ⟨rest, firstIs, _⟩ | ⟨rest, patternIs, secondIs⟩
  · exact Or.inl ⟨rest, firstIs.symm⟩
  · by_cases noRest : rest = []
    · refine Or.inl ⟨[], ?_⟩
      rw [patternIs, noRest]
      simp
    · exact Or.inr ⟨rest, patternIs, noRest, ⟨more, secondIs.symm⟩⟩

/-- A pattern that lacks a character does not stand across it. -/
theorem infix_append_cons_cases
    {character : Char}
    (lacks : character ∉ pattern)
    (found : pattern <:+: first ++ character :: second) :
    pattern <:+: first ∨ pattern <:+: second := by
  rcases infix_append_cases found with
    inFirst | inSecond | ⟨before, after, patternIs, _, notNil, _, isPrefix⟩
  · exact Or.inl inFirst
  · rcases List.infix_cons_iff.mp inSecond with atFront | behind
    · cases pattern with
      | nil =>
          exact Or.inl List.nil_infix
      | cons head rest =>
          rw [(List.cons_prefix_cons.mp atFront).1] at lacks
          exact absurd List.mem_cons_self lacks
    · exact Or.inr behind
  · obtain ⟨head, rest, rfl⟩ := List.exists_cons_of_ne_nil notNil
    rw [patternIs, (List.cons_prefix_cons.mp isPrefix).1] at lacks
    simp at lacks

end Places

section Searching

variable {pattern text rest : List Char}

theorem after?_eq_some :
    after? pattern text = some rest ↔ text = pattern ++ rest := by
  induction pattern generalizing text with
  | nil =>
      simp [after?, eq_comm]
  | cons expected pattern inductionHypothesis =>
      cases text with
      | nil =>
          simp [after?]
      | cons character text =>
          simp only [after?]
          split
          · rename_i same
            simp [inductionHypothesis, same]
          · rename_i different
            simp [Ne.symm different]

theorem after?_eq_none :
    after? pattern text = none ↔ ¬ pattern <+: text := by
  rw [Option.eq_none_iff_forall_ne_some]
  constructor
  · rintro never ⟨rest, whole⟩
    exact never rest (after?_eq_some.mpr whole.symm)
  · intro elsewhere rest found
    exact elsewhere ⟨rest, (after?_eq_some.mp found).symm⟩

/-- Looking for a pattern finds it wherever it stands. -/
theorem occurs_iff :
    occurs pattern text = true ↔ pattern <:+: text := by
  induction text with
  | nil =>
      simp [occurs]
  | cons character text inductionHypothesis =>
      rw [occurs, Bool.or_eq_true, inductionHypothesis,
        List.isPrefixOf_iff_prefix, List.infix_cons_iff]

theorem startsWith_iff
    {text pattern : String} :
    startsWith text pattern = true ↔ pattern.toList <+: text.toList := by
  rw [startsWith, List.isPrefixOf_iff_prefix]

end Searching

section Replacing

variable {pattern replacement text : List Char} {character : Char}

theorem replaceAfter_length
    (passed : List Char) :
    replaceAfter pattern replacement passed.length (passed ++ text) =
      replaceAll pattern replacement text := by
  induction passed with
  | nil =>
      rfl
  | cons character passed inductionHypothesis =>
      simpa [replaceAfter] using inductionHypothesis

theorem replaceAll_append_self
    (notNil : pattern ≠ []) :
    replaceAll pattern replacement (pattern ++ text) =
      replacement ++ replaceAll pattern replacement text := by
  obtain ⟨head, rest, rfl⟩ := List.exists_cons_of_ne_nil notNil
  have starts : (head :: rest).isPrefixOf (head :: (rest ++ text)) = true := by
    rw [List.isPrefixOf_iff_prefix, ← List.cons_append]
    exact List.prefix_append _ _
  rw [List.cons_append, replaceAll, replaceAfter, if_pos starts]
  simp [replaceAfter_length]

theorem replaceAll_cons
    (elsewhere : ¬ pattern <+: character :: text) :
    replaceAll pattern replacement (character :: text) =
      character :: replaceAll pattern replacement text := by
  rw [← List.isPrefixOf_iff_prefix] at elsewhere
  rw [replaceAll, replaceAfter, if_neg elsewhere]
  rfl

end Replacing

theorem join_toList
    (separator : String)
    (texts : List String) :
    (join separator texts).toList =
      List.intercalate separator.toList (texts.map String.toList) :=
  String.toList_ofList

theorem join_singleton
    (separator text : String) :
    join separator [text] = text := by
  rw [join, List.map_singleton, List.intercalate_singleton,
    String.ofList_toList]

theorem join_append
    {first second : List String}
    (separator : String)
    (firstNotNil : first ≠ [])
    (secondNotNil : second ≠ []) :
    join separator (first ++ second) =
      join separator first ++ separator ++ join separator second := by
  apply String.toList_injective
  simp only [join_toList, String.toList_append, List.map_append]
  induction first with
  | nil =>
      exact absurd rfl firstNotNil
  | cons text first inductionHypothesis =>
      cases first with
      | nil =>
          obtain ⟨next, second, rfl⟩ := List.exists_cons_of_ne_nil secondNotNil
          simp [List.intercalate]
      | cons next first =>
          have rest := inductionHypothesis (List.cons_ne_nil _ _)
          simp only [List.cons_append, List.map_cons] at rest ⊢
          rw [List.intercalate_cons_cons, List.intercalate_cons_cons, rest]
          simp only [List.append_assoc]

theorem replace_toList
    (text pattern replacement : String) :
    (replace text pattern replacement).toList =
      replaceAll pattern.toList replacement.toList text.toList :=
  String.toList_ofList

section Pieces

variable {isSeparator : Char → Bool} {text piece separator : List Char}
  {character : Char}

theorem exists_last
    (member : character ∈ text) :
    ∃ front last, text = front ++ character :: last ∧ character ∉ last := by
  obtain ⟨last, front, reversed, notInLast⟩ :=
    List.eq_append_cons_of_mem (List.mem_reverse.mpr member)
  refine ⟨front.reverse, last.reverse, ?_, by simpa using notInLast⟩
  rw [← List.reverse_reverse text, reversed]
  simp

theorem not_mem_intercalate
    {pieces : List (List Char)}
    (notBetween : character ∉ separator)
    (notInside : ∀ piece ∈ pieces, character ∉ piece) :
    character ∉ List.intercalate separator pieces := by
  induction pieces with
  | nil =>
      simp
  | cons piece pieces inductionHypothesis =>
      obtain ⟨notFirst, notOthers⟩ := List.forall_mem_cons.mp notInside
      cases pieces with
      | nil =>
          simpa using notFirst
      | cons next pieces =>
          rw [List.intercalate_cons_cons, List.mem_append, List.mem_append]
          exact not_or.mpr ⟨not_or.mpr ⟨notFirst, notBetween⟩,
            inductionHypothesis notOthers⟩

/--
Splitting at the characters of a class is splitting as the library does it.
-/
theorem splitWhere_eq_splitOnP
    (isSeparator : Char → Bool)
    (text : List Char) :
    splitWhere isSeparator text = text.splitOnP isSeparator := by
  induction text with
  | nil =>
      rfl
  | cons character text inductionHypothesis =>
      obtain ⟨first, rest, pieces⟩ :=
        List.exists_cons_of_ne_nil (List.splitOnP_ne_nil isSeparator text)
      rw [splitWhere, List.splitOnP_cons_eq_if_modifyHead, inductionHypothesis,
        pieces]
      rfl

/-- Splitting at one character is splitting as the library does it. -/
theorem splitOn_singleton
    (separator : Char)
    (text : List Char) :
    splitOn [separator] text = text.splitOn separator := by
  have single :
      splitOn [separator] text = splitWhere (· == separator) text := by
    induction text with
    | nil =>
        rfl
    | cons character text inductionHypothesis =>
        rw [splitOn, splitAfter, splitWhere, ← inductionHypothesis]
        by_cases isSeparator : character = separator
        · simp [isSeparator, splitOn]
        · rw [if_neg (by simpa using Ne.symm isSeparator),
            if_neg (by simpa using isSeparator)]
          rfl
  rw [single, splitWhere_eq_splitOnP, List.splitOn_eq_splitOnP]

theorem mem_and_outside_of_mem_splitWhere
    (isPiece : piece ∈ splitWhere isSeparator text) :
    ∀ character ∈ piece, character ∈ text ∧ isSeparator character = false := by
  induction text generalizing piece with
  | nil =>
      rw [splitWhere, List.mem_singleton] at isPiece
      simp [isPiece]
  | cons first text inductionHypothesis =>
      have later : piece ∈ splitWhere isSeparator text →
          ∀ character ∈ piece, character ∈ first :: text ∧
          isSeparator character = false :=
        fun isLater character member =>
          (inductionHypothesis isLater character member).imp_left
            (List.mem_cons_of_mem _)
      rw [splitWhere] at isPiece
      split at isPiece
      · rcases List.mem_cons.mp isPiece with rfl | isLater
        · simp
        · exact later isLater
      · rename_i notSeparator
        rw [splitWhere_eq_splitOnP] at isPiece inductionHypothesis later
        obtain ⟨head, rest, pieces⟩ :=
          List.exists_cons_of_ne_nil (List.splitOnP_ne_nil isSeparator text)
        rw [pieces] at inductionHypothesis later isPiece
        rcases List.mem_cons.mp isPiece with rfl | isLater
        · refine List.forall_mem_cons.mpr
            ⟨⟨List.mem_cons_self, by simpa using notSeparator⟩, ?_⟩
          exact fun character member =>
            (inductionHypothesis List.mem_cons_self character member).imp_left
              (List.mem_cons_of_mem _)
        · exact later (List.mem_cons_of_mem _ isLater)

theorem not_isSeparator_of_mem_splitWhere
    (isPiece : piece ∈ splitWhere isSeparator text) :
    ∀ character ∈ piece, isSeparator character = false :=
  fun character member =>
    (mem_and_outside_of_mem_splitWhere isPiece character member).2

end Pieces

end Flowgen.Text
