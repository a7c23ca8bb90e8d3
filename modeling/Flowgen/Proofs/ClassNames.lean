import Flowgen.Proofs.MethodIdentifiers
import Flowgen.Proofs.SpelledRuns

namespace Flowgen

/-!
# Class names

Of the name of a workflow only letters, numerals and white space count in the
name of its class: other characters can be put in anywhere, and any white
space divides words as well as any other.  The class for an ASCII name is an
identifier that spells these words.
-/

namespace Text

variable {isSeparator : Char → Bool} {gap : List Char}

/-- Separators between two texts keep their runs apart. -/
theorem runsOutside_append_gap
    (notNil : gap ≠ [])
    (separates : ∀ character ∈ gap, isSeparator character = true)
    (first second : List Char) :
    runsOutside isSeparator (first ++ (gap ++ second)) =
      runsOutside isSeparator first ++ runsOutside isSeparator second := by
  obtain ⟨separator, gap, rfl⟩ := List.exists_cons_of_ne_nil notNil
  obtain ⟨firstSeparates, othersSeparate⟩ := List.forall_mem_cons.mp separates
  rw [← runsOutside_append othersSeparate second, List.cons_append]
  simp only [runsOutside, splitWhere_eq_splitOnP]
  rw [List.splitOnP_append_cons _ _ firstSeparates, List.filter_append]

theorem capitalized_of_ascii
    {word : List Char}
    (isAscii : ∀ character ∈ word, character.toNat < 128) :
    capitalized word = Naming.capitalizedWord word := by
  cases word with
  | nil =>
      rfl
  | cons first rest =>
      obtain ⟨firstAscii, restAscii⟩ := List.forall_mem_cons.mp isAscii
      rw [capitalized, titleCharacter, if_pos firstAscii,
        lowerAfter_eq_map restAscii]
      rfl

end Text

namespace Naming

variable {workflow : Value} {name : String}

/--
Whether a character counts in a class name: it is shown, or it divides words.
-/
def isCounted (character : Char) : Bool :=
  Text.isAlphanumeric character || Text.isBlank character

/--
The words of a name: its runs between white space when all that does not count
is left out.
-/
def countedWords (name : List Char) : List (List Char) :=
  Text.wordsOf (name.filter isCounted)

/--
Names with one difference that does not count: a character put in, or other
white space.
-/
inductive Respaced : List Char → List Char → Prop where
  | ignored
      {character : Char}
      (notCounted : isCounted character = false)
      (front back : List Char) :
      Respaced (front ++ back) (front ++ character :: back)
  | gap
      {gap other : List Char}
      (notNil : gap ≠ [] ∧ other ≠ [])
      (isBlank : ∀ character ∈ gap ++ other, Text.isBlank character = true)
      (front back : List Char) :
      Respaced (front ++ (gap ++ back)) (front ++ (other ++ back))

/--
What stands before the words of a class if there are none, or if they start
with a digit.
-/
def classLead (spelled : List Char) : List Char :=
  if spelled.head?.all Char.isDigit then "Workflow".toList else []

/-- An ASCII letter and then ASCII letters and digits. -/
def IsClassIdentifier (name : List Char) : Prop :=
  ∃ first rest, name = first :: rest ∧ first.isAlpha = true ∧
    ∀ character ∈ rest, character.isAlphanum = true

theorem countedWords_eq_of_respaced
    {first second : List Char}
    (respaced : Respaced first second) :
    countedWords first = countedWords second := by
  cases respaced with
  | ignored notCounted front back =>
      rw [countedWords, countedWords, List.filter_append, List.filter_append,
        List.filter_cons_of_neg (by simp [notCounted])]
  | @gap gap other notNil isBlank front back =>
      obtain ⟨gapBlank, otherBlank⟩ := List.forall_mem_append.mp isBlank
      have words : ∀ gap : List Char, gap ≠ [] →
          (∀ character ∈ gap, Text.isBlank character = true) →
          countedWords (front ++ (gap ++ back)) =
            countedWords front ++ countedWords back := by
        intro gap notNil isBlank
        have counted : gap.filter isCounted = gap :=
          List.filter_eq_self.mpr fun character member => by
            simp [isCounted, isBlank character member]
        rw [countedWords, List.filter_append, List.filter_append, counted]
        exact Text.runsOutside_append_gap notNil isBlank _ _
      rw [words gap notNil.1 gapBlank, words other notNil.2 otherBlank]

theorem countedWords_eq_of_eqvGen
    {first second : List Char}
    (alike : Relation.EqvGen Respaced first second) :
    countedWords first = countedWords second := by
  induction alike with
  | rel _ _ respaced =>
      exact countedWords_eq_of_respaced respaced
  | refl =>
      rfl
  | symm _ _ _ inductionHypothesis =>
      exact inductionHypothesis.symm
  | trans _ _ _ _ _ firstAlike secondAlike =>
      exact firstAlike.trans secondAlike

/--
The class for a workflow that goes by a text is made of the words that count.
-/
theorem className_of_text
    (named : workflow.get "name" (.text "Workflow") = .ok (.text name)) :
    className workflow =
      .ok (String.ofList (startedAsClass
        ((countedWords name.toList).flatMap Text.capitalized))) := by
  have kept : ∀ text : List Char,
      keptPieces (text.map fun character => .text (String.ofList [character])) =
        .ok (text.filter isCounted) := by
    intro text
    induction text with
    | nil =>
        rfl
    | cons character text inductionHypothesis =>
        have isCharacterKept : isKept [character] = isCounted character := by
          simp [isKept, consistsOf, isCounted]
        rw [List.map_cons, keptPieces, inductionHypothesis, List.filter_cons]
        simp only [Value.textFor, bind, Except.bind, String.toList_ofList,
          isCharacterKept]
        cases isCounted character <;> rfl
  rw [className, named]
  simp only [Value.elements, bind, Except.bind, kept]
  rfl

theorem isWord_of_mem_countedWords
    (isAscii : ∀ character ∈ name.toList, character.toNat < 128)
    {word : List Char}
    (member : word ∈ countedWords name.toList) :
    IsWord word := by
  obtain ⟨isPiece, notEmpty⟩ := List.mem_filter.mp member
  refine ⟨by simpa using notEmpty, fun character inWord => ?_⟩
  obtain ⟨inKept, notBlank⟩ :=
    Text.mem_and_outside_of_mem_splitWhere isPiece character inWord
  obtain ⟨inName, counted⟩ := List.mem_filter.mp inKept
  rw [isCounted, notBlank, Bool.or_false, Text.isAlphanumeric,
    if_pos (isAscii character inName)] at counted
  exact counted

theorem isClassIdentifier_workflow
    {text : List Char}
    (alphanumeric : ∀ character ∈ text, character.isAlphanum = true) :
    IsClassIdentifier (fallbackClass ++ text) := by
  refine ⟨'W', "orkflow".toList ++ text, ?_, by decide, ?_⟩
  · rw [← List.cons_append]
    exact congrArg (· ++ text) (by decide)
  · exact List.forall_mem_append.mpr ⟨by decide, alphanumeric⟩

theorem startedAsClass_eq
    {text : List Char}
    (alphanumeric : ∀ character ∈ text, character.isAlphanum = true) :
    startedAsClass text = classLead text ++ text ∧
    IsClassIdentifier (startedAsClass text) := by
  have lead : fallbackClass = "Workflow".toList := rfl
  cases text with
  | nil =>
      rw [startedAsClass, classLead, List.head?_nil, Option.all_none,
        if_pos rfl, ← lead, ← List.append_nil fallbackClass]
      exact ⟨by simp, isClassIdentifier_workflow alphanumeric⟩
  | cons first rest =>
      obtain ⟨ofFirst, ofRest⟩ := List.forall_mem_cons.mp alphanumeric
      have range := range_of_isAlphanum ofFirst
      have letter : Text.isLetter first = first.isAlpha := by
        rw [Text.isLetter, if_pos (by omega)]
      rw [startedAsClass, letter, classLead, List.head?_cons, Option.all_some,
        ← lead]
      cases isDigit : first.isDigit with
      | true =>
          obtain ⟨notUpper, notLower⟩ := not_isUpper_of_isDigit isDigit
          rw [if_neg (by simp [Char.isAlpha, notUpper, notLower]), if_pos rfl]
          exact ⟨rfl, isClassIdentifier_workflow alphanumeric⟩
      | false =>
          have isAlpha : first.isAlpha = true := by
            simpa [Char.isAlphanum, isDigit] using ofFirst
          rw [if_pos isAlpha, if_neg Bool.false_ne_true]
          exact ⟨rfl, first, rest, rfl, isAlpha, ofRest⟩

/--
The class for a workflow with an ASCII name is an identifier.  It spells the
words of the name, behind a word of its own if these do not start with a
letter, and it is the class for every name with differences that do not count.
-/
theorem className_spells_words
    (named : workflow.get "name" (.text "Workflow") = .ok (.text name))
    (isAscii : ∀ character ∈ name.toList, character.toNat < 128) :
    ∃ words identifier, Text.HasRuns Text.isBlank (name.toList.filter isCounted)
      words ∧
      className workflow = .ok identifier ∧
      IsClassIdentifier identifier.toList ∧
      identifier.toList =
        classLead (words.flatMap capitalizedWord) ++
        words.flatMap capitalizedWord ∧
      ∀ (other : Value) (text : String),
        other.get "name" (.text "Workflow") = .ok (.text text) →
        Relation.EqvGen Respaced name.toList text.toList →
          className other = .ok identifier := by
  obtain ⟨words, hasRuns⟩ :=
    Text.exists_hasRuns Text.isBlank (name.toList.filter isCounted)
  have wordsAre : countedWords name.toList = words := hasRuns.runsOutside_eq
  have areWords : ∀ word ∈ words, IsWord word := fun word member =>
    isWord_of_mem_countedWords isAscii (wordsAre ▸ member)
  have spelled : (countedWords name.toList).flatMap Text.capitalized =
      words.flatMap capitalizedWord := by
    rw [wordsAre]
    refine List.flatMap_congr fun word member =>
      Text.capitalized_of_ascii fun character inWord => ?_
    have range :=
      range_of_isAlphanum ((areWords word member).alphanumeric character inWord)
    omega
  have alphanumeric : ∀ character ∈ words.flatMap capitalizedWord,
      character.isAlphanum = true := by
    intro character member
    obtain ⟨word, isWord, inWord⟩ := List.mem_flatMap.mp member
    exact isAlphanum_of_mem_capitalizedWord (areWords word isWord) inWord
  obtain ⟨lead, isIdentifier⟩ := startedAsClass_eq alphanumeric
  have classIs := className_of_text named
  rw [spelled] at classIs
  refine ⟨words, _, hasRuns, classIs, ?_, ?_,
    fun other text otherNamed alike => ?_⟩
  · rwa [String.toList_ofList]
  · rw [String.toList_ofList, lead]
  · rw [className_of_text otherNamed, ← countedWords_eq_of_eqvGen alike,
      spelled]

/--
A name with a separator and an apostrophe, and one with a space and without
it.
-/
theorem className_spells_words_second :
    className (.object [("name", .text "2nd\x1cuser's")]) =
      .ok "Workflow2ndUsers" ∧
      className (.object [("name", .text "2nd users")]) =
        .ok "Workflow2ndUsers" := by
  have alike :
      Relation.EqvGen Respaced "2nd\x1cuser's".toList "2nd users".toList :=
    .trans _ "2nd user's".toList _
      (.rel _ _ (@Respaced.gap "\x1c".toList " ".toList (by decide) (by decide)
        "2nd".toList "user's".toList))
      (.symm _ _ (.rel _ _ (@Respaced.ignored '\x27' (by decide)
        "2nd user".toList "s".toList)))
  obtain ⟨words, identifier, hasRuns, classIs, _, spelled, others⟩ :=
    @className_spells_words (.object [("name", .text "2nd\x1cuser's")]) _ rfl
      (by decide)
  obtain rfl : ["2nd".toList, "users".toList] = words :=
    .trans (by decide) hasRuns.runsOutside_eq
  obtain rfl : identifier = "Workflow2ndUsers" :=
    String.toList_injective (spelled.trans (by decide))
  exact ⟨classIs, others _ _ rfl alike⟩

end Naming

end Flowgen
