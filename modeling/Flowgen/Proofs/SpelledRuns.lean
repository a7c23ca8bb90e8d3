import Flowgen.Proofs.MethodNames

namespace Flowgen

/-!
# Camel case spells the runs of a text

Of a text only its runs of ASCII letters and digits show in camel case, in the
order in which they stand there.  What separates them does not show, and
neither does what decomposition leaves of other characters.
-/

namespace Text

section Decomposition

variable {text : List Char}

theorem orderMarks_of_ascii
    (isAscii : ∀ character ∈ text, character.toNat < 128) :
    orderMarks text = text := by
  induction text with
  | nil =>
      rfl
  | cons character text inductionHypothesis =>
      obtain ⟨firstAscii, restAscii⟩ := List.forall_mem_cons.mp isAscii
      have noClass : combiningClass character = 0 := if_pos firstAscii
      rw [orderMarks, inductionHypothesis restAscii]
      cases text with
      | nil =>
          rfl
      | cons next text =>
          rw [insertMark, if_neg (by omega)]

theorem decomposed_of_ascii
    (isAscii : ∀ character ∈ text, character.toNat < 128) :
    decomposed text = text := by
  have single :
      ∀ character ∈ text, decomposeCharacter character = [character] :=
    fun character member => if_pos (isAscii character member)
  rw [decomposed, List.flatMap_congr single, List.flatMap_singleton',
    orderMarks_of_ascii isAscii]

theorem isAscii_of_mem_asciiResidue
    {character : Char}
    (member : character ∈ asciiResidue text) :
    character.toNat < 128 := by
  simpa using (List.mem_filter.mp member).2

theorem asciiResidue_of_ascii
    (isAscii : ∀ character ∈ text, character.toNat < 128) :
    asciiResidue text = text :=
  List.filter_eq_self.mpr fun character member => by
    simpa using isAscii character member

end Decomposition

/--
The maximal runs of characters outside a class, as they stand in a text: some
separators, a run that ends where the text or a separator follows, and so on.
-/
inductive HasRuns (isSeparator : Char → Bool) :
  List Char → List (List Char) → Prop where
  | gap
      {gap : List Char}
      (separates : ∀ character ∈ gap, isSeparator character = true) :
      HasRuns isSeparator gap []
  | run
      {gap run rest : List Char}
      {runs : List (List Char)}
      (separates : ∀ character ∈ gap, isSeparator character = true)
      (notNil : run ≠ [])
      (outside : ∀ character ∈ run, isSeparator character = false)
      (ends : ∀ character, rest.head? = some character →
        isSeparator character = true)
      (later : HasRuns isSeparator rest runs) :
      HasRuns isSeparator (gap ++ run ++ rest) (run :: runs)

section Runs

variable {isSeparator : Char → Bool} {text gap run rest : List Char}
  {runs : List (List Char)} {character : Char}

theorem runsOutside_cons
    (separates : isSeparator character = true)
    (text : List Char) :
    runsOutside isSeparator (character :: text) =
      runsOutside isSeparator text := by
  rw [runsOutside, splitWhere, if_pos separates]
  rfl

theorem runsOutside_append
    (separates : ∀ character ∈ gap, isSeparator character = true)
    (text : List Char) :
    runsOutside isSeparator (gap ++ text) = runsOutside isSeparator text := by
  induction gap with
  | nil =>
      rfl
  | cons character gap inductionHypothesis =>
      obtain ⟨firstSeparates, restSeparates⟩ :=
        List.forall_mem_cons.mp separates
      rw [List.cons_append, runsOutside_cons firstSeparates,
        inductionHypothesis restSeparates]

/-- A run in front that ends where a separator follows is a run of the text. -/
theorem runsOutside_run_append
    (notNil : run ≠ [])
    (outside : ∀ character ∈ run, isSeparator character = false)
    (ends : ∀ character, rest.head? = some character →
      isSeparator character = true) :
    runsOutside isSeparator (run ++ rest) =
      run :: runsOutside isSeparator rest := by
  cases rest with
  | nil =>
      rw [List.append_nil, runsOutside, splitWhere_eq_splitOnP,
        List.splitOnP_eq_singleton outside,
        List.filter_cons_of_pos (by simpa using notNil)]
      rfl
  | cons character rest =>
      rw [runsOutside_cons (ends character rfl), runsOutside, runsOutside,
        splitWhere_eq_splitOnP,
        List.splitOnP_append_cons_of_forall_mem outside _ (ends character rfl),
        List.filter_cons_of_pos (by simpa using notNil), splitWhere_eq_splitOnP]

namespace HasRuns

theorem runsOutside_eq
    (hasRuns : HasRuns isSeparator text runs) :
    runsOutside isSeparator text = runs := by
  induction hasRuns with
  | @gap gap separates =>
      have nothing := runsOutside_append separates []
      rwa [List.append_nil] at nothing
  | run separates notNil outside ends _ inductionHypothesis =>
      rw [List.append_assoc, runsOutside_append separates,
        runsOutside_run_append notNil outside ends, inductionHypothesis]

theorem cons_separator
    (separates : isSeparator character = true)
    (hasRuns : HasRuns isSeparator text runs) :
    HasRuns isSeparator (character :: text) runs := by
  cases hasRuns with
  | gap allSeparate =>
      exact .gap (List.forall_mem_cons.mpr ⟨separates, allSeparate⟩)
  | run allSeparate notNil outside ends later =>
      rw [← List.cons_append, ← List.cons_append]
      exact .run (List.forall_mem_cons.mpr ⟨separates, allSeparate⟩) notNil
        outside ends later

/--
A text whose first character is not in a run starts a run with the character
before it.
-/
theorem start_run
    (outside : isSeparator character = false)
    (ends : ∀ next, text.head? = some next → isSeparator next = true)
    (hasRuns : HasRuns isSeparator text runs) :
    HasRuns isSeparator (character :: text) ([character] :: runs) :=
  @HasRuns.run _ [] [character] text runs (by simp) (by simp)
    (by simpa using outside) ends hasRuns

end HasRuns

theorem exists_hasRuns
    (isSeparator : Char → Bool)
    (text : List Char) :
    ∃ runs, HasRuns isSeparator text runs := by
  induction text with
  | nil =>
      exact ⟨[], .gap (by simp)⟩
  | cons character text inductionHypothesis =>
      obtain ⟨runs, hasRuns⟩ := inductionHypothesis
      cases separates : isSeparator character with
      | true =>
          exact ⟨runs, hasRuns.cons_separator separates⟩
      | false =>
          by_cases ends :
            ∀ next, text.head? = some next → isSeparator next = true
          · exact ⟨_, hasRuns.start_run separates ends⟩
          · -- the character belongs to the run that the text starts with
            cases hasRuns with
            | gap allSeparate =>
                exact absurd (fun next isHead =>
                  allSeparate next (List.mem_of_head? isHead)) ends
            | @run gap run rest runs allSeparate notNil outside runEnds later =>
                cases gap with
                | nil =>
                    exact ⟨_, @HasRuns.run _ [] (character :: run) rest runs
                      (by simp) (by simp)
                      (List.forall_mem_cons.mpr ⟨separates, outside⟩) runEnds
                        later⟩
                | cons first gap =>
                    refine absurd (fun next isHead => ?_) ends
                    rw [← Option.some.inj isHead]
                    exact allSeparate first List.mem_cons_self

end Runs

end Text

namespace Naming

/-- Whether a character is neither an ASCII letter nor an ASCII digit. -/
def isGap (character : Char) : Bool :=
  !character.isAlphanum

/--
The ASCII characters that are left of a text when its accents are taken off.
-/
def residue (text : String) : String :=
  String.ofList (Text.asciiResidue (Text.decomposed text.toList))

/--
How runs are spelled: the first one in lower case, every other one with its
first character in upper case and the rest in lower case.  No runs at all are
spelled `node`.
-/
def spelled : List (List Char) → String
  | [] => "node"
  | first :: later =>
      String.ofList (first.map Char.toLower ++ later.flatMap fun run =>
        (run.take 1).map Char.toUpper ++ (run.drop 1).map Char.toLower)

theorem isAscii_residue
    (text : String) :
    ∀ character ∈ (residue text).toList, character.toNat < 128 := by
  rw [residue, String.toList_ofList]
  exact fun _ => Text.isAscii_of_mem_asciiResidue

theorem residue_of_ascii
    {text : String}
    (isAscii : ∀ character ∈ text.toList, character.toNat < 128) :
    residue text = text := by
  rw [residue, Text.decomposed_of_ascii isAscii,
    Text.asciiResidue_of_ascii isAscii, String.ofList_toList]

theorem ofList_camelWords
    {words : List (List Char)}
    (areWords : ∀ word ∈ words, IsWord word) :
    String.ofList (orFallback (camelWords words)) = spelled words := by
  have capital : ∀ word : List Char, capitalizedWord word =
      (word.take 1).map Char.toUpper ++ (word.drop 1).map Char.toLower := by
    rintro (_ | ⟨first, rest⟩) <;> rfl
  cases words with
  | nil =>
      decide
  | cons word words =>
      have notNil :=
        (isWord_camelWords (List.cons_ne_nil word words) areWords).notNil
      rw [orFallback, if_neg (by simpa using notNil), camelWords, spelled,
        funext capital]

/-- The camel case of a text spells the runs of its residue. -/
theorem camelCaseOf_text
    (text : String) :
    camelCaseOf (.text text) =
      .ok (spelled (Text.runsOutside isGap (residue text).toList)) := by
  have wordsAre :
      nameWords text.toList = Text.runsOutside isGap (residue text).toList := by
    rw [residue, String.toList_ofList]
    rfl
  rw [← wordsAre, camelCaseOf]
  split
  · rw [← ofList_camelWords fun _ => isWord_of_mem_nameWords, ← camelCase_eq]
    rfl
  · rename_i isEmpty
    obtain rfl : text = "" := by simpa [Value.isTruthy] using isEmpty
    decide

/-- A text has no runs if and only if it has no letters and digits. -/
theorem hasRuns_nil_iff
    {text : List Char} :
    Text.HasRuns isGap text [] ↔
    ∀ character ∈ text, character.isAlphanum = false := by
  constructor
  · intro hasRuns
    cases hasRuns with
    | gap separates =>
        exact fun character member => by
          simpa [isGap] using separates character member
  · exact fun noRuns =>
      .gap fun character member => by simp [isGap, noRuns character member]

/--
The camel case of a text is that of its residue.  That of an ASCII text is the
fallback if it has no letters and digits; it spells the runs of the text,
whatever stands between and around them.
-/
theorem camelCaseOf_spells_runs :
    (∀ text : String, camelCaseOf (.text text) =
      camelCaseOf (.text (residue text))) ∧
    ∀ text : String, (∀ character ∈ text.toList, character.toNat < 128) →
      ((∀ character ∈ text.toList, character.isAlphanum = false) →
        camelCaseOf (.text text) = .ok "node") ∧
      (∃ runs, Text.HasRuns isGap text.toList runs) ∧
      ∀ runs, Text.HasRuns isGap text.toList runs →
        camelCaseOf (.text text) = .ok (spelled runs) ∧
        ∀ other : String, (∀ character ∈ other.toList, character.toNat < 128) →
          Text.HasRuns isGap other.toList runs →
            camelCaseOf (.text other) = camelCaseOf (.text text) := by
  have spells :
      ∀ text : String, (∀ character ∈ text.toList, character.toNat < 128) →
      ∀ runs, Text.HasRuns isGap text.toList runs →
        camelCaseOf (.text text) = .ok (spelled runs) := by
    intro text isAscii runs hasRuns
    rw [camelCaseOf_text, residue_of_ascii isAscii, hasRuns.runsOutside_eq]
  refine ⟨fun text => ?_, fun text isAscii =>
    ⟨fun noRuns => ?_, ?_, fun runs hasRuns => ⟨?_, ?_⟩⟩⟩
  · rw [camelCaseOf_text, camelCaseOf_text,
      residue_of_ascii (isAscii_residue text)]
  · exact spells text isAscii [] (hasRuns_nil_iff.mpr noRuns)
  · exact Text.exists_hasRuns isGap text.toList
  · exact spells text isAscii runs hasRuns
  · intro other otherAscii otherRuns
    rw [spells other otherAscii runs otherRuns,
      spells text isAscii runs hasRuns]

/--
A text with separators of all kinds around its runs, and one with blanks
between the same.
-/
theorem camelCaseOf_spells_runs_request :
    camelCaseOf (.text "__HTTP\x1crequest--V2!") = .ok "httpRequestV2" ∧
      camelCaseOf (.text "HTTP request V2") =
        camelCaseOf (.text "__HTTP\x1crequest--V2!") := by
  have hasRuns : Text.HasRuns isGap "__HTTP\x1crequest--V2!".toList
      ["HTTP".toList, "request".toList, "V2".toList] :=
    @Text.HasRuns.run isGap "__".toList "HTTP".toList "\x1crequest--V2!".toList
      _ (by decide) (by decide) (by decide) (by simp [isGap])
      (@Text.HasRuns.run isGap "\x1c".toList "request".toList "--V2!".toList _
        (by decide) (by decide) (by decide) (by simp [isGap])
        (@Text.HasRuns.run isGap "--".toList "V2".toList "!".toList _
          (by decide) (by decide) (by decide) (by simp [isGap])
            (.gap (by decide))))
  have otherRuns : Text.HasRuns isGap "HTTP request V2".toList
      ["HTTP".toList, "request".toList, "V2".toList] :=
    @Text.HasRuns.run isGap [] "HTTP".toList " request V2".toList _
      (by decide) (by decide) (by decide) (by simp [isGap])
      (@Text.HasRuns.run isGap " ".toList "request".toList " V2".toList _
        (by decide) (by decide) (by decide) (by simp [isGap])
        (@Text.HasRuns.run isGap " ".toList "V2".toList [] _
          (by decide) (by decide) (by decide) (by simp [isGap])
            (.gap (by decide))))
  obtain ⟨spells, same⟩ :=
    (camelCaseOf_spells_runs.2 _ (by decide)).2.2 _ hasRuns
  exact ⟨spells, same _ (by decide) otherRuns⟩

/-- Accents are taken off before the runs are spelled. -/
example : camelCaseOf (.text "Versículo Bíblico") = .ok "versiculoBiblico" := by
  decide +kernel

end Naming

end Flowgen
