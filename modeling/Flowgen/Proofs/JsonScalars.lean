import Flowgen.Json.Printer
import Flowgen.Json.Reader
import Mathlib.Data.List.Basic
import Mathlib.Tactic.IntervalCases

namespace Flowgen.Json

/-!
# Scalars are read back

A text, an integer or a word that is written in front of something is read
back up to where it ends.  Of a text every character is given back by its
escape; of an integer the digits are all that is taken, so long as no digit,
point or exponent mark follows them.
-/

section Texts

variable {character : Char}

/-- Four hexadecimal digits spell the code of a control character again. -/
theorem codeUnit?_hexadecimal :
    ∀ unit < 32, Text.hexadecimal 4 unit =
        ['0', '0', (unit / 16).digitChar, (unit % 16).digitChar] ∧
      codeUnit? '0' '0' (unit / 16).digitChar (unit % 16).digitChar =
        some unit := by
  decide +kernel

theorem units?_escaped
    {letter : Char}
    (notUnit : letter ≠ 'u')
    (means : escaped? letter = some character)
    (rest : List Char) :
    units? ('\\' :: letter :: rest) =
      (units? rest).map (addUnit character.toNat) := by
  rw [units?, means]
  exact fun _ _ _ _ _ isUnit _ => notUnit isUnit

theorem units?_cons
    (notQuote : character ≠ '\x22')
    (notBackslash : character ≠ '\\')
    (printable : ¬ character.toNat < 32)
    (rest : List Char) :
    units? (character :: rest) =
      (units? rest).map (addUnit character.toNat) := by
  rw [units?, if_neg (not_or.mpr ⟨printable, notBackslash⟩)]
  · exact notQuote
  · exact fun _ _ _ _ _ isBackslash _ => notBackslash isBackslash
  · exact fun _ _ isBackslash _ => notBackslash isBackslash

theorem units?_escape
    (character : Char)
    (rest : List Char) :
    units? (escape character ++ rest) =
      (units? rest).map (addUnit character.toNat) := by
  unfold escape
  split
  · rename_i isMark
    refine units?_escaped (fun isUnit => ?_) ?_ rest
    · rcases isMark with rfl | rfl <;> cases isUnit
    · rcases isMark with rfl | rfl <;> rfl
  · rename_i notMark
    rw [not_or] at notMark
    split
    · rename_i isBreak
      exact isBreak ▸ units?_escaped (by decide) rfl rest
    split
    · rename_i isReturn
      exact isReturn ▸ units?_escaped (by decide) rfl rest
    split
    · rename_i isTab
      exact isTab ▸ units?_escaped (by decide) rfl rest
    split
    · rename_i isBackspace
      exact isBackspace ▸ units?_escaped (by decide) rfl rest
    split
    · rename_i isFeed
      exact isFeed ▸ units?_escaped (by decide) rfl rest
    split
    · rename_i small
      obtain ⟨digitsAre, unitIs⟩ := codeUnit?_hexadecimal character.toNat small
      rw [digitsAre]
      simp only [List.cons_append, List.nil_append]
      rw [units?, unitIs]
    · rename_i printable
      exact units?_cons notMark.1 notMark.2 printable rest

theorem units?_flatMap_escape
    (content rest : List Char) :
    units? (content.flatMap escape ++ '\x22' :: rest) =
      some (content.map Char.toNat, rest) := by
  induction content with
  | nil =>
      rfl
  | cons character content inductionHypothesis =>
      rw [List.flatMap_cons, List.append_assoc, units?_escape,
        inductionHypothesis]
      rfl

theorem isHighHalf_toNat
    (character : Char) :
    isHighHalf character.toNat = false := by
  have isValid := character.valid
  simp only [UInt32.isValidChar, Nat.isValidChar] at isValid
  simp only [isHighHalf, Char.toNat, Bool.and_eq_false_iff,
    decide_eq_false_iff_not]
  omega

theorem isLowHalf_toNat
    (character : Char) :
    isLowHalf character.toNat = false := by
  have isValid := character.valid
  simp only [UInt32.isValidChar, Nat.isValidChar] at isValid
  simp only [isLowHalf, Char.toNat, Bool.and_eq_false_iff,
    decide_eq_false_iff_not]
  omega

/-- No code of a character is half of a pair. -/
theorem joinHalves_map_toNat
    (content : List Char) :
    joinHalves (content.map Char.toNat) = content := by
  have joined : ∀ (character : Char) (units : List Nat),
      joinHalves (character.toNat :: units) =
        character :: joinHalves units := by
    intro character units
    cases units with
    | nil =>
        simp [joinHalves, isHighHalf_toNat, isLowHalf_toNat]
    | cons unit units =>
        simp [joinHalves, isHighHalf_toNat, isLowHalf_toNat]
  induction content with
  | nil =>
      rfl
  | cons character content inductionHypothesis =>
      rw [List.map_cons, joined, inductionHypothesis]

theorem quoted_append
    (content : String)
    (rest : List Char) :
    quoted content ++ rest = '\x22' ::
    (content.toList.flatMap escape ++ '\x22' :: rest) := by
  simp [quoted]

/-- A text is read back from behind its opening quote. -/
theorem text?_flatMap_escape
    (content : String)
    (rest : List Char) :
    text? (content.toList.flatMap escape ++ '\x22' :: rest) =
      some (content, rest) := by
  rw [text?, units?_flatMap_escape, Option.map_some, joinHalves_map_toNat,
    String.ofList_toList]

end Texts

section Words

/-- No word starts another one, so each is found where it stands. -/
theorem word?_append
    {word : List Char}
    {value : Value}
    (isWord : (word, value) ∈ wordValues)
    (rest : List Char) :
    word? (word ++ rest) = some (value, rest) := by
  simp only [wordValues, List.mem_cons, List.not_mem_nil, or_false,
    Prod.mk.injEq] at isWord
  rcases isWord with ⟨rfl, rfl⟩ | ⟨rfl, rfl⟩ | ⟨rfl, rfl⟩ | ⟨rfl, rfl⟩ | ⟨rfl,
    rfl⟩ | ⟨rfl, rfl⟩
  all_goals rfl

theorem word?_cons_eq_none
    {character : Char}
    (other : character ∉ ['n', 't', 'f', 'N', 'I', '-'])
    (rest : List Char) :
    word? (character :: rest) = none := by
  simp only [List.mem_cons, List.not_mem_nil, or_false, not_or] at other
  obtain ⟨notN, notT, notF, notCapitalN, notI, notMinus⟩ := other
  simp [word?, wordValues, Text.after?, Ne.symm notN, Ne.symm notT,
    Ne.symm notF, Ne.symm notCapitalN, Ne.symm notI, Ne.symm notMinus]

theorem word?_minus_eq_none
    {character : Char}
    (notWord : character ≠ 'I')
    (rest : List Char) :
    word? ('-' :: character :: rest) = none := by
  simp [word?, wordValues, Text.after?, Ne.symm notWord]

end Words

section Integers

/-- What may follow a number: no digit, no point and no exponent mark. -/
def EndsNumber (rest : List Char) : Prop :=
  ∀ character, rest.head? = some character →
    character.isDigit = false ∧ character ∉ ['.', 'e', 'E']

theorem head?_toDigits_ne_zero
    (number : Nat)
    (positive : 0 < number) :
    (Nat.toDigits 10 number).head? ≠ some '0' := by
  induction number using Nat.strongRecOn with
  | ind number inductionHypothesis =>
      by_cases small : number < 10
      · rw [Nat.toDigits_of_lt_base small]
        interval_cases number <;> decide
      · rw [Nat.toDigits_of_base_le (by decide) (Nat.le_of_not_lt small),
          List.head?_append_of_ne_nil _ Nat.toDigits_ne_nil]
        exact inductionHypothesis (number / 10) (by omega) (by omega)

theorem wholeDigits_toDigits
    {rest : List Char}
    (ends : EndsNumber rest)
    (number : Nat) :
    wholeDigits (Nat.toDigits 10 number ++ rest) = Nat.toDigits 10 number := by
  rcases Nat.eq_zero_or_pos number with rfl | positive
  · rfl
  · have digits : ∀ digit ∈ Nat.toDigits 10 number, digit.isDigit = true :=
      fun digit member =>
        Nat.isDigit_of_mem_toDigits (by decide) (by decide) member
    have none : rest.takeWhile Char.isDigit = [] := by
      cases rest with
      | nil =>
          rfl
      | cons character rest =>
          exact List.takeWhile_cons_of_neg (by simp [(ends character rfl).1])
    have starts := head?_toDigits_ne_zero number positive
    rw [wholeDigits]
    · rw [List.takeWhile_append_of_pos digits, none, List.append_nil]
    · intro tail same
      rw [← List.head?_append_of_ne_nil _ Nat.toDigits_ne_nil, same] at starts
      exact starts rfl

/--
The digits of a number are read as an integer if nothing else of a number
follows.
-/
theorem number_toDigits
    {number : Nat}
    {rest : List Char}
    (ends : EndsNumber rest)
    (short : (Nat.toDigits 10 number).length ≤ Numeral.digitLimit)
    (negative : Bool) :
    Json.number negative (Nat.toDigits 10 number ++ rest) =
      .ok (.int (if negative then -(number : Int) else number), rest) := by
  have noFraction : fractionDigits rest = ([], rest) := by
    rw [fractionDigits]
    rintro tail rfl
    exact (ends '.' rfl).2 (by decide)
  have noExponent : exponentPart rest = (none, rest) := by
    cases rest with
    | nil =>
        rfl
    | cons mark rest =>
        have other := (ends mark rfl).2
        simp only [List.mem_cons, List.not_mem_nil, or_false, not_or] at other
        simp [exponentPart, other.2.1, other.2.2]
  have value : Numeral.ofDigits (Nat.toDigits 10 number) = number :=
    Nat.ofDigitChars_toDigits (by decide) (by decide)
  have notEmpty : (Nat.toDigits 10 number).isEmpty = false := by
    simp [Nat.toDigits_ne_nil]
  simp only [Json.number, wholeDigits_toDigits ends, List.drop_left, noFraction,
    noExponent, notEmpty, value]
  simp [Nat.not_lt.mpr short]

theorem toList_toString_int
    (number : Int) :
    (toString number).toList =
      (if number < 0 then ['-'] else []) ++ Nat.toDigits 10 number.natAbs := by
  cases number with
  | ofNat number =>
      rw [Int.ofNat_eq_natCast,
        if_neg (Int.not_lt.mpr (Int.natCast_nonneg number)), List.nil_append]
      exact Nat.toList_repr
  | negSucc number =>
      rw [if_pos (Int.negSucc_lt_zero number)]
      change ("-" ++ (number + 1).repr).toList = _
      rw [String.toList_append, Nat.toList_repr]
      rfl

theorem exists_toDigits_eq
    (number : Nat) :
    ∃ digit digits, Nat.toDigits 10 number = digit :: digits ∧
      ∀ other, Char.isDigit other = false → digit ≠ other := by
  obtain ⟨digit, digits, digitsAre⟩ := List.exists_cons_of_ne_nil
    (@Nat.toDigits_ne_nil number 10)
  refine ⟨digit, digits, digitsAre, ?_⟩
  have isDigit : digit.isDigit = true := by
    apply Nat.isDigit_of_mem_toDigits (show 0 < 10 by decide) (by decide)
    exact digitsAre ▸ List.mem_cons_self
  rintro other notDigit rfl
  rw [isDigit] at notDigit
  cases notDigit

end Integers

theorem scalar_word
    {word : List Char}
    {value : Value}
    (isWord : (word, value) ∈ wordValues)
    (rest : List Char) :
    scalar (word ++ rest) = .ok (value, rest) := by
  unfold scalar
  rw [word?_append isWord]

theorem scalar_quoted
    (content : String)
    (rest : List Char) :
    scalar (quoted content ++ rest) = .ok (.text content, rest) := by
  rw [quoted_append, scalar, word?_cons_eq_none (by decide)]
  simp only [text?_flatMap_escape]

theorem scalar_toString_int
    {number : Int}
    {rest : List Char}
    (ends : EndsNumber rest)
    (short : (Nat.toDigits 10 number.natAbs).length ≤ Numeral.digitLimit) :
    scalar ((toString number).toList ++ rest) = .ok (.int number, rest) := by
  have read := number_toDigits ends short
  obtain ⟨digit, digits, digitsAre, differs⟩ := exists_toDigits_eq number.natAbs
  rw [toList_toString_int]
  rw [digitsAre] at read ⊢
  by_cases negative : number < 0
  · have numberIs : -(number.natAbs : Int) = number := by omega
    rw [if_pos negative, List.append_assoc, List.singleton_append,
      List.cons_append, scalar, word?_minus_eq_none (differs 'I' rfl)]
    have readNegative := read true
    rwa [if_pos rfl, numberIs] at readNegative
  · have numberIs : (number.natAbs : Int) = number := by omega
    have noDigits : ∀ other ∈ ['n', 't', 'f', 'N', 'I', '-'],
        Char.isDigit other = false := by
      decide
    have noWord : word? (digit :: (digits ++ rest)) = none :=
      word?_cons_eq_none (fun member =>
        differs digit (noDigits digit member) rfl) _
    rw [if_neg negative, List.nil_append, List.cons_append, scalar]
    · rw [noWord]
      have readPositive := read false
      rwa [if_neg Bool.false_ne_true, numberIs] at readPositive
    · exact fun _ same => differs _ rfl (List.cons.inj same).1
    · exact fun _ same => differs _ rfl (List.cons.inj same).1

end Flowgen.Json
