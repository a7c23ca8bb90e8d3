import Flowgen.Naming.MethodName
import Flowgen.Proofs.Searching
import Mathlib

namespace Flowgen.Naming

/-!
# When method names are the same

The name of a method shows its words by capitals only, so it can be read back
up to what it never shows: accents and other characters, the case of letters,
and a break before a digit.
-/

/-- A run of ASCII letters and digits. -/
structure IsWord (word : List Char) : Prop where
  notNil : word ≠ []
  alphanumeric : ∀ character ∈ word, character.isAlphanum = true

/-- The words of a name: the runs of letters and digits in its decomposition. -/
def nameWords (text : List Char) : List (List Char) :=
  Text.runsOutside (fun character => !character.isAlphanum)
    (Text.asciiResidue (Text.decomposed text))

/-- Whether a word starts with a letter. -/
def startsWithLetter (word : List Char) : Bool :=
  word.head?.any Char.isAlpha

/-- A word in lower case. -/
def lowerWord (word : List Char) : List Char :=
  word.map Char.toLower

/--
Words in lower case, each that starts with a digit written on to the one
before it.
-/
def joinedWords : List (List Char) → List (List Char)
  | [] => []
  | word :: words =>
      match joinedWords words with
      | [] => [lowerWord word]
      | next :: rest =>
          if startsWithLetter next then
            lowerWord word :: next :: rest
          else
            (lowerWord word ++ next) :: rest

/--
The parts of a method name for words, the first of which starts with a letter.
-/
def startedParts : List (List Char) → List (List Char)
  | [] => [fallbackName]
  | word :: words =>
      if startsWithLetter word then
        joinedWords (word :: words)
      else
        [fallbackName ++ lowerWord (word :: words).flatten]

/-- The parts of the method name for a text: what the name shows of it. -/
def nameParts (text : List Char) : List (List Char) :=
  let parts := startedParts (nameWords text)
  if reservedWords.contains (String.ofList parts.flatten) then
    parts ++ [fallbackName]
  else
    parts

section Words

variable {character : Char}

/-- Characters that are replaced by separators separate as before. -/
theorem splitWhere_map
    {isSeparator wasSeparator : Char → Bool}
    {change : Char → Char}
    (same : ∀ character, isSeparator (change character) =
      wasSeparator character)
    (kept : ∀ character, wasSeparator character = false →
      change character = character)
    (text : List Char) :
    Text.splitWhere isSeparator (text.map change) =
      Text.splitWhere wasSeparator text := by
  induction text with
  | nil =>
      rfl
  | cons character text inductionHypothesis =>
      rw [List.map_cons, Text.splitWhere, Text.splitWhere, same,
        inductionHypothesis]
      cases separates : wasSeparator character with
      | true =>
          rfl
      | false =>
          rw [kept character separates]

theorem range_of_isAlphanum
    (isAlphanumeric : character.isAlphanum = true) :
    ((65 ≤ character.toNat ∧ character.toNat ≤ 90) ∨
      (97 ≤ character.toNat ∧ character.toNat ≤ 122)) ∨
      (48 ≤ character.toNat ∧ character.toNat ≤ 57) := by
  simpa [Char.isAlphanum, Char.isAlpha, Char.isUpper, Char.isLower,
    Char.isDigit, UInt32.le_iff_toNat_le] using isAlphanumeric

theorem not_isBlank_of_isAlphanum
    (isAlphanumeric : character.isAlphanum = true) :
    Text.isBlank character = false := by
  have range := range_of_isAlphanum isAlphanumeric
  simp only [Text.isBlank, Bool.or_eq_false_iff, Bool.and_eq_false_iff,
    decide_eq_false_iff_not, beq_eq_false_iff_ne]
  omega

/-- Punctuation, white space and underscores all separate words. -/
theorem runsOutside_punctuationDropped
    (text : List Char) :
    Text.runsOutside separatesWords (punctuationDropped text) =
      Text.runsOutside (fun character => !character.isAlphanum) text := by
  have same : ∀ character, separatesWords
      (if isWordCharacter character ||
        Text.isBlank character then character else ' ') =
        !character.isAlphanum := by
    intro character
    cases isAlphanumeric : character.isAlphanum with
    | true =>
        have notDash : character ≠ '-' := by rintro rfl; cases isAlphanumeric
        have notUnderscore : character ≠ '_' := by
          rintro rfl; cases isAlphanumeric
        simp [isWordCharacter, isAlphanumeric, separatesWords,
          not_isBlank_of_isAlphanum, notDash, notUnderscore]
    | false =>
        by_cases isUnderscore : character = '_'
        · subst isUnderscore
          decide
        · by_cases isBlank : Text.isBlank character = true
          · simp [isWordCharacter, isAlphanumeric, separatesWords, isBlank]
          · have isOther : (isWordCharacter character ||
                Text.isBlank character) = false := by
              simp [isWordCharacter, isAlphanumeric, isUnderscore, isBlank]
            rw [isOther, if_neg Bool.false_ne_true]
            decide
  have kept : ∀ character : Char, (!character.isAlphanum) = false →
      (if isWordCharacter character ||
        Text.isBlank character then character else ' ') = character := by
    intro character isAlphanumeric
    rw [Bool.not_eq_false'] at isAlphanumeric
    simp [isWordCharacter, isAlphanumeric]
  rw [Text.runsOutside, punctuationDropped, splitWhere_map same kept,
    ← Text.runsOutside]

theorem isWord_of_mem_nameWords
    {text word : List Char}
    (member : word ∈ nameWords text) :
    IsWord word := by
  obtain ⟨isPiece, notEmpty⟩ := List.mem_filter.mp member
  refine ⟨by simpa using notEmpty, fun character inWord => ?_⟩
  simpa using Text.not_isSeparator_of_mem_splitWhere isPiece character inWord

theorem not_isUpper_of_isDigit
    (isDigit : character.isDigit = true) :
    character.isUpper = false ∧ character.isLower = false := by
  simp [Char.isDigit, Char.isUpper, Char.isLower, UInt32.le_iff_toNat_le]
    at isDigit ⊢
  omega

theorem case_of_isDigit
    (isDigit : character.isDigit = true) :
    character.toLower = character ∧ character.toUpper = character := by
  obtain ⟨notUpper, notLower⟩ := not_isUpper_of_isDigit isDigit
  exact ⟨Char.toLower_eq_of_not_isUpper (by simp [notUpper]),
    Char.toUpper_eq_of_not_isLower (by simp [notLower])⟩

theorem isAlphanum_case
    (isAlphanumeric : character.isAlphanum = true) :
    character.toLower.isAlphanum = true ∧
    character.toUpper.isAlphanum = true := by
  rcases Bool.or_eq_true_iff.mp isAlphanumeric with isAlpha | isDigit
  · simp [Char.isAlphanum, isAlpha]
  · obtain ⟨lower, upper⟩ := case_of_isDigit isDigit
    rw [lower, upper]
    exact ⟨isAlphanumeric, isAlphanumeric⟩

theorem isAlphanum_of_mem_capitalizedWord
    {word : List Char}
    (isWord : IsWord word)
    (member : character ∈ capitalizedWord word) :
    character.isAlphanum = true := by
  obtain ⟨first, rest, rfl⟩ := List.exists_cons_of_ne_nil isWord.notNil
  obtain ⟨ofFirst, ofRest⟩ := List.forall_mem_cons.mp isWord.alphanumeric
  rcases List.mem_cons.mp member with rfl | inRest
  · exact (isAlphanum_case ofFirst).2
  · obtain ⟨other, isOther, rfl⟩ := List.mem_map.mp inRest
    exact (isAlphanum_case (ofRest other isOther)).1

theorem isAlphanum_of_mem_camelWords
    {words : List (List Char)}
    (areWords : ∀ word ∈ words, IsWord word)
    (member : character ∈ camelWords words) :
    character.isAlphanum = true := by
  cases words with
  | nil =>
      cases member
  | cons word words =>
      obtain ⟨isWord, othersAre⟩ := List.forall_mem_cons.mp areWords
      rcases List.mem_append.mp member with inFirst | later
      · obtain ⟨other, isOther, rfl⟩ := List.mem_map.mp inFirst
        exact (isAlphanum_case (isWord.alphanumeric other isOther)).1
      · obtain ⟨next, isNext, inNext⟩ := List.mem_flatMap.mp later
        exact isAlphanum_of_mem_capitalizedWord (othersAre next isNext) inNext

/-- The camel case of a text is made of its words. -/
theorem camelCase_eq
    (text : List Char) :
    camelCase text = orFallback (camelWords (nameWords text)) := by
  have nothingDropped : (camelWords (nameWords text)).filter Char.isAlphanum =
      camelWords (nameWords text) :=
    List.filter_eq_self.mpr fun character member =>
      isAlphanum_of_mem_camelWords (fun _ => isWord_of_mem_nameWords) member
  rw [camelCase, runsOutside_punctuationDropped, ← nameWords, nothingDropped]

end Words

section Lower

variable {word next : List Char} {words : List (List Char)}

@[simp] theorem lowerWord_lowerWord
    (word : List Char) :
    lowerWord (lowerWord word) = lowerWord word := by
  simp [lowerWord]

theorem lowerWord_append
    (first second : List Char) :
    lowerWord (first ++ second) = lowerWord first ++ lowerWord second :=
  List.map_append

@[simp] theorem lowerWord_capitalizedWord
    (word : List Char) :
    lowerWord (capitalizedWord word) = lowerWord word := by
  cases word <;> simp [lowerWord, capitalizedWord]

@[simp] theorem capitalizedWord_lowerWord
    (word : List Char) :
    capitalizedWord (lowerWord word) = capitalizedWord word := by
  cases word <;> simp [lowerWord, capitalizedWord]

theorem lowerWord_camelWords
    (words : List (List Char)) :
    lowerWord (camelWords words) = lowerWord words.flatten := by
  cases words with
  | nil =>
      rfl
  | cons word words =>
      have others : lowerWord (words.flatMap capitalizedWord) =
          lowerWord words.flatten := by
        induction words with
        | nil =>
            rfl
        | cons next words inductionHypothesis =>
            rw [List.flatMap_cons, lowerWord_append, inductionHypothesis,
              lowerWord_capitalizedWord, List.flatten_cons, lowerWord_append]
      rw [camelWords, ← lowerWord, lowerWord_append, lowerWord_lowerWord,
        others, List.flatten_cons, lowerWord_append]

/--
A word that starts with a digit has the same capitalised form as in lower
case.
-/
theorem capitalizedWord_of_digit
    (isWord : IsWord word)
    (digit : startsWithLetter word = false) :
    capitalizedWord word = lowerWord word := by
  obtain ⟨first, rest, rfl⟩ := List.exists_cons_of_ne_nil isWord.notNil
  have notAlpha : first.isAlpha = false := by
    simpa [startsWithLetter] using digit
  have isDigit : first.isDigit = true := by
    simpa [Char.isAlphanum, notAlpha]
      using isWord.alphanumeric first List.mem_cons_self
  obtain ⟨lower, upper⟩ := case_of_isDigit isDigit
  simp [capitalizedWord, lowerWord, lower, upper]

theorem capitalizedWord_append
    (notNil : word ≠ []) :
    capitalizedWord (word ++ next) =
      capitalizedWord word ++ lowerWord next := by
  obtain ⟨first, rest, rfl⟩ := List.exists_cons_of_ne_nil notNil
  simp [capitalizedWord, lowerWord]

theorem IsWord.lower
    (isWord : IsWord word) :
    IsWord (lowerWord word) where
  notNil := by simp [lowerWord, isWord.notNil]
  alphanumeric := by
    refine List.forall_mem_map.mpr fun character member => ?_
    exact (isAlphanum_case (isWord.alphanumeric character member)).1

theorem IsWord.append
    (isWord : IsWord word)
    (isNext : IsWord next) :
    IsWord (word ++ next) where
  notNil := by simp [isWord.notNil]
  alphanumeric :=
    List.forall_mem_append.mpr ⟨isWord.alphanumeric, isNext.alphanumeric⟩

end Lower

section Joined

variable {word part : List Char} {words : List (List Char)}

/--
Writing a word in front of joined words adds a part, or extends the first one.
-/
theorem joinedWords_cons
    (word : List Char)
    (words : List (List Char)) :
    (∃ parts, joinedWords words = parts ∧
      joinedWords (word :: words) = lowerWord word :: parts ∧
        ∀ next ∈ parts.head?, startsWithLetter next = true) ∨
      ∃ next rest, joinedWords words = next :: rest ∧
      startsWithLetter next = false ∧
        joinedWords (word :: words) = (lowerWord word ++ next) :: rest := by
  rw [joinedWords]
  cases joinedWords words with
  | nil =>
      exact .inl ⟨[], rfl, rfl, by simp⟩
  | cons next rest =>
      cases starts : startsWithLetter next with
      | true =>
          refine .inl ⟨next :: rest, rfl, ?_, by simp [starts]⟩
          simp [starts]
      | false =>
          refine .inr ⟨next, rest, rfl, starts, ?_⟩
          simp [starts]

theorem isWord_of_mem_joinedWords
    (areWords : ∀ word ∈ words, IsWord word) :
    ∀ part ∈ joinedWords words, IsWord part ∧ lowerWord part = part := by
  induction words with
  | nil =>
      simp [joinedWords]
  | cons word words inductionHypothesis =>
      obtain ⟨isWord, othersAre⟩ := List.forall_mem_cons.mp areWords
      have others := inductionHypothesis othersAre
      rcases joinedWords_cons word words with
        ⟨parts, rfl, joined, _⟩ | ⟨next, rest, before, _, joined⟩
      · rw [joined]
        exact List.forall_mem_cons.mpr
          ⟨⟨isWord.lower, lowerWord_lowerWord word⟩, others⟩
      · rw [before] at others
        obtain ⟨⟨isNext, nextLower⟩, restAre⟩ := List.forall_mem_cons.mp others
        rw [joined]
        refine List.forall_mem_cons.mpr
          ⟨⟨isWord.lower.append isNext, ?_⟩, restAre⟩
        rw [lowerWord_append, lowerWord_lowerWord, nextLower]

/-- Joining words changes nothing in their capitalised form. -/
theorem flatMap_joinedWords
    (areWords : ∀ word ∈ words, IsWord word) :
    (joinedWords words).flatMap capitalizedWord =
      words.flatMap capitalizedWord := by
  induction words with
  | nil =>
      rfl
  | cons word words inductionHypothesis =>
      obtain ⟨isWord, othersAre⟩ := List.forall_mem_cons.mp areWords
      have others := inductionHypothesis othersAre
      rcases joinedWords_cons word words with
        ⟨parts, rfl, joined, _⟩ | ⟨next, rest, before, digit, joined⟩
      · rw [joined, List.flatMap_cons, others, List.flatMap_cons,
          capitalizedWord_lowerWord]
      · have isNext :=
          (isWord_of_mem_joinedWords othersAre next (by simp [before])).1
        rw [before, List.flatMap_cons] at others
        rw [joined, List.flatMap_cons, List.flatMap_cons, ← others,
          capitalizedWord_append isWord.lower.notNil, capitalizedWord_lowerWord,
          capitalizedWord_of_digit isNext digit, List.append_assoc]

/-- Joining words changes nothing in their camel case. -/
theorem camelWords_joinedWords
    (areWords : ∀ word ∈ words, IsWord word) :
    camelWords (joinedWords words) = camelWords words := by
  cases words with
  | nil =>
      rfl
  | cons word words =>
      obtain ⟨isWord, othersAre⟩ := List.forall_mem_cons.mp areWords
      have others := flatMap_joinedWords othersAre
      rcases joinedWords_cons word words with
        ⟨parts, rfl, joined, _⟩ | ⟨next, rest, before, digit, joined⟩
      · rw [joined, camelWords, camelWords, others, ← lowerWord, ← lowerWord,
          lowerWord_lowerWord]
      · have isNext :=
          (isWord_of_mem_joinedWords othersAre next (by simp [before])).1
        rw [before, List.flatMap_cons] at others
        rw [joined, camelWords, camelWords, ← others, ← lowerWord, ← lowerWord,
          lowerWord_append,
          lowerWord_lowerWord, capitalizedWord_of_digit isNext digit,
          List.append_assoc]

theorem flatten_joinedWords
    (words : List (List Char)) :
    (joinedWords words).flatten = lowerWord words.flatten := by
  induction words with
  | nil =>
      rfl
  | cons word words inductionHypothesis =>
      rcases joinedWords_cons word words with
        ⟨parts, rfl, joined, _⟩ | ⟨next, rest, before, _, joined⟩
      · rw [joined, List.flatten_cons, inductionHypothesis, List.flatten_cons,
          lowerWord_append]
      · rw [before, List.flatten_cons] at inductionHypothesis
        rw [joined, List.flatten_cons, List.append_assoc, inductionHypothesis,
          List.flatten_cons, lowerWord_append]

theorem startsWithLetter_lowerWord
    (word : List Char) :
    startsWithLetter (lowerWord word) = startsWithLetter word := by
  cases word <;> simp [startsWithLetter, lowerWord]

theorem startsWithLetter_append
    {next : List Char}
    (notNil : word ≠ []) :
    startsWithLetter (word ++ next) = startsWithLetter word := by
  obtain ⟨first, rest, rfl⟩ := List.exists_cons_of_ne_nil notNil
  rfl

/-- All joined words but the first start with letters. -/
theorem startsWithLetter_of_mem_tail_joinedWords
    (words : List (List Char)) :
    ∀ part ∈ (joinedWords words).tail, startsWithLetter part = true := by
  induction words with
  | nil =>
      simp [joinedWords]
  | cons word words inductionHypothesis =>
      rcases joinedWords_cons word words with
        ⟨parts, rfl, joined, starts⟩ | ⟨next, rest, before, _, joined⟩
      · rw [joined, List.tail_cons]
        cases parts : joinedWords words with
        | nil =>
            simp
        | cons next rest =>
            rw [parts] at starts inductionHypothesis
            exact List.forall_mem_cons.mpr
              ⟨starts next rfl, inductionHypothesis⟩
      · rw [before] at inductionHypothesis
        rw [joined]
        exact inductionHypothesis

theorem startsWithLetter_of_mem_joinedWords
    (notNil : word ≠ [])
    (starts : startsWithLetter word = true) :
    ∀ part ∈ joinedWords (word :: words), startsWithLetter part = true := by
  have others := startsWithLetter_of_mem_tail_joinedWords (word :: words)
  rcases joinedWords_cons word words with
    ⟨parts, _, joined, _⟩ | ⟨next, rest, _, _, joined⟩
  · rw [joined] at others ⊢
    exact List.forall_mem_cons.mpr
      ⟨by rw [startsWithLetter_lowerWord, starts], others⟩
  · rw [joined] at others ⊢
    refine List.forall_mem_cons.mpr ⟨?_, others⟩
    rw [startsWithLetter_append (by simp [lowerWord, notNil]),
      startsWithLetter_lowerWord, starts]

end Joined

section Parts

variable {part first second : List Char} {parts others : List (List Char)}

/-- A part of a method name: a small letter, then no capitals. -/
def IsPart (part : List Char) : Prop :=
  ∃ first rest, part = first :: rest ∧ first.isLower = true ∧
    ∀ character ∈ rest, character.isUpper = false

theorem isPart_of_lowerWord
    (lower : lowerWord part = part)
    (starts : startsWithLetter part = true) :
    IsPart part := by
  have small : ∀ character ∈ part, character.isUpper = false := by
    rw [← lower]
    exact List.forall_mem_map.mpr fun character _ =>
      Char.isUpper_toLower_eq_false character
  cases part with
  | nil =>
      cases starts
  | cons first rest =>
      obtain ⟨firstSmall, restSmall⟩ := List.forall_mem_cons.mp small
      have isAlpha : first.isAlpha = true := by
        simpa [startsWithLetter] using starts
      refine ⟨first, rest, rfl, ?_, restSmall⟩
      simpa [Char.isAlpha, firstSmall] using isAlpha

theorem lowerWord_of_small
    (small : ∀ character ∈ part, character.isUpper = false) :
    lowerWord part = part := by
  calc
    lowerWord part = part.map id :=
      List.map_congr_left fun character member =>
        Char.toLower_eq_of_not_isUpper (by simp [small character member])
    _ = part := List.map_id part

theorem IsPart.small
    (isPart : IsPart part) :
    ∀ character ∈ part, character.isUpper = false := by
  obtain ⟨first, rest, rfl, isLower, restSmall⟩ := isPart
  refine List.forall_mem_cons.mpr ⟨?_, restSmall⟩
  simpa using Char.not_isUpper_of_isLower isLower

/-- The capitalised form of a part has one capital, at its start. -/
theorem IsPart.capitalizedWord_eq
    (isPart : IsPart part) :
    ∃ first rest, part = first.toLower :: rest ∧
    capitalizedWord part = first :: rest ∧
      first.isUpper = true ∧ ∀ character ∈ rest, character.isUpper = false := by
  obtain ⟨first, rest, rfl, isLower, small⟩ := isPart
  refine ⟨first.toUpper, rest, ?_, ?_, ?_, small⟩
  · rw [Char.toLower_toUpper_eq_toLower,
      Char.toLower_eq_of_not_isUpper (Char.not_isUpper_of_isLower isLower)]
  · rw [capitalizedWord, ← lowerWord, lowerWord_of_small small]
  · simp [Char.isAlpha, isLower]

theorem head?_capitals
    (areParts : ∀ part ∈ parts, IsPart part) :
    ∀ character ∈ (parts.flatMap capitalizedWord).head?,
    character.isUpper = true := by
  cases parts with
  | nil =>
      simp
  | cons part parts =>
      obtain ⟨first, rest, _, written, isUpper, _⟩ :=
        (areParts part List.mem_cons_self).capitalizedWord_eq
      simp [List.flatMap_cons, written, isUpper]

/-- A text without capitals is all that stands before the first capital. -/
theorem takeWhile_append_capitals
    (small : ∀ character ∈ first, character.isUpper = false)
    (areParts : ∀ part ∈ parts, IsPart part) :
    (first ++ parts.flatMap capitalizedWord).takeWhile
      (fun character => !character.isUpper) =
      first := by
  have stops : (parts.flatMap capitalizedWord).takeWhile
      (fun character => !character.isUpper) = [] := by
    have capital := head?_capitals areParts
    cases written : parts.flatMap capitalizedWord with
    | nil =>
        rfl
    | cons character rest =>
        rw [written] at capital
        exact List.takeWhile_cons_of_neg (by simp [capital character rfl])
  rw [List.takeWhile_append_of_pos
    (fun character member => by simp [small character member]),
    stops, List.append_nil]

/-- What stands before the first capital can be read back. -/
theorem append_capitals_inj
    (areParts : ∀ part ∈ parts, IsPart part)
    (areOthers : ∀ part ∈ others, IsPart part)
    (firstSmall : ∀ character ∈ first, character.isUpper = false)
    (secondSmall : ∀ character ∈ second, character.isUpper = false)
    (same : first ++ parts.flatMap capitalizedWord =
      second ++ others.flatMap capitalizedWord) :
    first = second ∧ parts.flatMap capitalizedWord =
      others.flatMap capitalizedWord := by
  have firstSame : first = second := by
    rw [← takeWhile_append_capitals firstSmall areParts, same,
      takeWhile_append_capitals secondSmall areOthers]
  subst firstSame
  exact ⟨rfl, List.append_cancel_left same⟩

/-- Parts can be read back from their capitalised forms. -/
theorem flatMap_capitalizedWord_inj
    (areParts : ∀ part ∈ parts, IsPart part)
    (areOthers : ∀ part ∈ others, IsPart part)
    (same : parts.flatMap capitalizedWord = others.flatMap capitalizedWord) :
    parts = others := by
  induction parts generalizing others with
  | nil =>
      cases others with
      | nil =>
          rfl
      | cons other others =>
          obtain ⟨first, rest, _, written, _⟩ :=
            (areOthers other List.mem_cons_self).capitalizedWord_eq
          simp [written] at same
  | cons part parts inductionHypothesis =>
      obtain ⟨isPart, restParts⟩ := List.forall_mem_cons.mp areParts
      obtain ⟨first, rest, rfl, written, _, small⟩ := isPart.capitalizedWord_eq
      cases others with
      | nil =>
          simp [written] at same
      | cons other others =>
          obtain ⟨isOther, restOthers⟩ := List.forall_mem_cons.mp areOthers
          obtain ⟨second, more, rfl, otherWritten, _, otherSmall⟩ :=
            isOther.capitalizedWord_eq
          rw [List.flatMap_cons, List.flatMap_cons, written, otherWritten,
            List.cons_append, List.cons_append, List.cons.injEq] at same
          obtain ⟨rfl, same⟩ := same
          obtain ⟨rfl, sameRest⟩ :=
            append_capitals_inj restParts restOthers small otherSmall same
          rw [inductionHypothesis restParts restOthers sameRest]

/-- Parts can be read back from their camel case. -/
theorem camelWords_inj
    (areParts : ∀ part ∈ parts, IsPart part)
    (areOthers : ∀ part ∈ others, IsPart part) :
    camelWords parts = camelWords others ↔ parts = others := by
  refine ⟨fun same => ?_, congrArg camelWords⟩
  have notNil :
      ∀ {part : List Char}, IsPart part → part.map Char.toLower ≠ [] := by
    rintro _ ⟨_, _, rfl, _⟩
    simp
  cases parts with
  | nil =>
      cases others with
      | nil =>
          rfl
      | cons other others =>
          have := notNil (areOthers other List.mem_cons_self)
          simp_all [camelWords]
  | cons part parts =>
      obtain ⟨isPart, restParts⟩ := List.forall_mem_cons.mp areParts
      cases others with
      | nil =>
          have := notNil isPart
          simp_all [camelWords]
      | cons other others =>
          obtain ⟨isOther, restOthers⟩ := List.forall_mem_cons.mp areOthers
          rw [camelWords, camelWords, ← lowerWord, ← lowerWord,
            lowerWord_of_small isPart.small,
            lowerWord_of_small isOther.small] at same
          obtain ⟨rfl, sameRest⟩ :=
            append_capitals_inj restParts restOthers isPart.small isOther.small
              same
          rw [flatMap_capitalizedWord_inj restParts restOthers sameRest]

end Parts

section Names

variable {text : List Char} {words : List (List Char)}

/-- Camel case keeps whether the first word starts with a letter. -/
theorem startsWithLetter_camelWords
    {word : List Char}
    (notNil : word ≠ []) :
    startsWithLetter (camelWords (word :: words)) = startsWithLetter word := by
  rw [camelWords, ← lowerWord,
    startsWithLetter_append (by simp [lowerWord, notNil]),
    startsWithLetter_lowerWord]

theorem isWord_camelWords
    (notNil : words ≠ [])
    (areWords : ∀ word ∈ words, IsWord word) :
    IsWord (camelWords words) where
  notNil := by
    obtain ⟨word, rest, rfl⟩ := List.exists_cons_of_ne_nil notNil
    simp [camelWords, (areWords word List.mem_cons_self).notNil]
  alphanumeric _ member := isAlphanum_of_mem_camelWords areWords member

/--
A name in lower case up to its first letter is not changed if that is a
letter.
-/
theorem startedByLetter_eq
    {name : List Char}
    (isWord : IsWord name) :
    startedByLetter name =
      if startsWithLetter name then
        (name.head isWord.notNil).toLower :: name.tail
      else
        fallbackName ++ lowerWord name := by
  split
  · rename_i starts
    cases name with
    | nil =>
        exact absurd rfl isWord.notNil
    | cons first rest =>
        have isAlpha : first.isAlpha = true := by
          simpa [startsWithLetter] using starts
        simp [startedByLetter, isAlpha]
  · rename_i digit
    rw [← capitalizedWord_of_digit isWord (by simpa using digit)]
    cases name with
    | nil =>
        exact absurd rfl isWord.notNil
    | cons first rest =>
        have notAlpha : first.isAlpha = false := by
          simpa [startsWithLetter] using digit
        simp [startedByLetter, notAlpha]

/-- The camel case of words, started by a letter, has the parts of the words. -/
theorem startedByLetter_camelWords
    (areWords : ∀ word ∈ words, IsWord word) :
    startedByLetter (orFallback (camelWords words)) =
      camelWords (startedParts words) := by
  cases words with
  | nil =>
      decide
  | cons word words =>
      have isWord := areWords word List.mem_cons_self
      have isName := isWord_camelWords (List.cons_ne_nil word words) areWords
      have present : orFallback (camelWords (word :: words)) =
          camelWords (word :: words) := by
        simp [orFallback, isName.notNil]
      rw [present, startedByLetter_eq isName,
        startsWithLetter_camelWords isWord.notNil, startedParts]
      split
      · rw [camelWords_joinedWords areWords]
        obtain ⟨first, rest, rfl⟩ := List.exists_cons_of_ne_nil isWord.notNil
        simp [camelWords]
      · have lower : lowerWord fallbackName = fallbackName := by decide
        rw [lowerWord_camelWords, camelWords, ← lowerWord, lowerWord_append,
          lowerWord_lowerWord, lower, List.flatMap_nil, List.append_nil]

theorem isPart_fallbackName : IsPart fallbackName :=
  isPart_of_lowerWord (by decide) (by decide)

theorem isPart_of_mem_startedParts
    (areWords : ∀ word ∈ words, IsWord word) :
    ∀ part ∈ startedParts words, IsPart part := by
  cases words with
  | nil =>
      exact List.forall_mem_singleton.mpr isPart_fallbackName
  | cons word words =>
      have isWord := areWords word List.mem_cons_self
      rw [startedParts]
      split
      · rename_i starts
        intro part member
        exact isPart_of_lowerWord
          (isWord_of_mem_joinedWords areWords part member).2
          (startsWithLetter_of_mem_joinedWords isWord.notNil starts part member)
      · refine List.forall_mem_singleton.mpr (isPart_of_lowerWord ?_ ?_)
        · rw [lowerWord_append, lowerWord_lowerWord]
          rfl
        · rw [startsWithLetter_append (by decide)]
          decide

theorem startedParts_ne_nil
    (words : List (List Char)) :
    startedParts words ≠ [] := by
  cases words with
  | nil =>
      exact List.cons_ne_nil _ _
  | cons word words =>
      rw [startedParts]
      split
      · rw [joinedWords]
        split
        · exact List.cons_ne_nil _ _
        · split <;> exact List.cons_ne_nil _ _
      · exact List.cons_ne_nil _ _

theorem isPart_of_mem_nameParts
    (text : List Char) :
    ∀ part ∈ nameParts text, IsPart part := by
  have started :=
    isPart_of_mem_startedParts fun word => @isWord_of_mem_nameWords text word
  rw [nameParts]
  split
  · exact List.forall_mem_append.mpr
      ⟨started, List.forall_mem_singleton.mpr isPart_fallbackName⟩
  · exact started

theorem lowerWord_flatten
    {parts : List (List Char)}
    (areParts : ∀ part ∈ parts, IsPart part) :
    lowerWord parts.flatten = parts.flatten := by
  refine lowerWord_of_small fun character member => ?_
  obtain ⟨part, isPart, inPart⟩ := List.mem_flatten.mp member
  exact (areParts part isPart).small character inPart

theorem camelWords_concat
    {parts : List (List Char)}
    (notNil : parts ≠ [])
    (part : List Char) :
    camelWords (parts ++ [part]) =
      camelWords parts ++ capitalizedWord part := by
  obtain ⟨first, rest, rfl⟩ := List.exists_cons_of_ne_nil notNil
  simp [camelWords]

/-- The method name for a text is the camel case of its parts. -/
theorem methodNameOf_camelCase
    (text : List Char) :
    (methodNameOf (String.ofList (camelCase text))).toList =
      camelWords (nameParts text) := by
  have areWords : ∀ word ∈ nameWords text, IsWord word :=
    fun _ => isWord_of_mem_nameWords
  have lower : (camelWords (startedParts (nameWords text))).map Char.toLower =
      (startedParts (nameWords text)).flatten := by
    rw [← lowerWord, lowerWord_camelWords,
      lowerWord_flatten (isPart_of_mem_startedParts areWords)]
  have capital : capitalizedWord fallbackName = "Node".toList := by decide
  rw [methodNameOf, String.toList_ofList, String.toList_ofList, camelCase_eq,
    startedByLetter_camelWords areWords, unreserved, lower, nameParts]
  split
  · rw [camelWords_concat (startedParts_ne_nil _), capital]
  · rfl

/--
Two texts give the same method name if and only if they have the same parts.
-/
theorem methodNameOf_eq_iff
    (first second : List Char) :
    methodNameOf (String.ofList (camelCase first)) =
        methodNameOf (String.ofList (camelCase second)) ↔
      nameParts first = nameParts second := by
  rw [← String.toList_inj, methodNameOf_camelCase, methodNameOf_camelCase,
    camelWords_inj (isPart_of_mem_nameParts first)
      (isPart_of_mem_nameParts second)]

end Names

end Flowgen.Naming
