import Flowgen.Class.Generator
import Flowgen.Proofs.MethodTexts
import Mathlib.Data.List.Sublists

namespace Flowgen

/-!
# What is put into class templates

The name of a class, its calls and its imports have no tags at all, and its
constructor has none if the names of its parameters have none.
-/

open Template

namespace Text

variable {text : List Char} {character : Char}

theorem ofNat_ne_brace
    {code : Nat}
    (notBrace : code ≠ 123) :
    Char.ofNat code ≠ '\x7b' := by
  intro same
  by_cases valid : code.isValidChar
  · have opened : Char.ofNat code = Char.ofNatAux code valid := dif_pos valid
    exact notBrace (congrArg Char.toNat (opened.symm.trans same))
  · have opened : Char.ofNat code = Char.ofNatAux 0 (by decide) := dif_neg valid
    exact absurd (opened.symm.trans same) (by decide)

/-- Runs of characters that are not moved to an opening brace. -/
def AvoidBrace (runs : List CaseRun) : Prop :=
  ∀ run ∈ runs, (run.last : Int) + run.offset < 123 ∨
    123 < (run.first : Int) + run.offset

instance (runs : List CaseRun) : Decidable (AvoidBrace runs) :=
  inferInstanceAs (Decidable (∀ _ ∈ _, _))

/-- Changing the case of a character beyond ASCII makes no opening brace. -/
theorem brace_not_mem_mapCase
    {expansions : List (Nat × List Nat)}
    {runs : List CaseRun}
    (expanded : ∀ entry ∈ expansions, 123 ∉ entry.2)
    (moved : AvoidBrace runs)
    (beyond : character.toNat ≠ 123) :
    '\x7b' ∉ mapCase expansions runs character := by
  unfold mapCase
  split
  · rename_i codes found
    have member : (character.toNat, codes) ∈ expansions := by
      obtain ⟨before, behind, whole, _⟩ := List.lookup_eq_some_iff.mp found
      rw [whole]
      simp
    simp only [List.mem_map, not_exists, not_and]
    exact fun code isCode => ofNat_ne_brace fun same =>
      expanded _ member (same ▸ isCode)
  · rw [List.mem_singleton]
    refine Ne.symm (ofNat_ne_brace ?_)
    unfold mapByRuns
    split
    · rename_i run found
      have inRun := List.find?_some found
      simp only [Bool.and_eq_true, decide_eq_true_eq] at inRun
      have apart := moved run (List.mem_of_find?_eq_some found)
      omega
    · exact beyond

theorem avoidBrace_runs : AvoidBrace lowerRuns ∧ AvoidBrace titleRuns := by
  simp only [lowerRuns, titleRuns, runsIn, rangesIn, wordsIn, List.flatMap_cons,
    List.flatMap_nil]
  -- The characters are put in for the lines: evaluation reads them slowly,
  -- from bytes.
  repeat rewrite [String.toList_ofList]
  decide +kernel

theorem brace_not_mem_lowerCharacter
    (notBrace : character ≠ '\x7b') :
    '\x7b' ∉ lowerCharacter character := by
  unfold lowerCharacter
  split
  · rw [List.mem_singleton]
    exact (Naming.toLower_ne_brace notBrace).symm
  · exact brace_not_mem_mapCase (by decide) avoidBrace_runs.1 (by omega)

theorem brace_not_mem_titleCharacter
    (notBrace : character ≠ '\x7b') :
    '\x7b' ∉ titleCharacter character := by
  unfold titleCharacter
  split
  · rw [List.mem_singleton]
    exact (Naming.toUpper_ne_brace notBrace).symm
  · exact brace_not_mem_mapCase (by decide) avoidBrace_runs.2 (by omega)

theorem brace_not_mem_lowerAfter
    {before : List Char}
    (noOpening : '\x7b' ∉ text) :
    '\x7b' ∉ lowerAfter before text := by
  induction text generalizing before with
  | nil =>
      exact noOpening
  | cons character text inductionHypothesis =>
      obtain ⟨notFirst, notRest⟩ := not_or.mp (List.mem_cons.not.mp noOpening)
      rw [lowerAfter, List.mem_append, not_or]
      refine ⟨?_, inductionHypothesis notRest⟩
      split
      · rw [List.mem_singleton]
        split <;> decide
      · exact brace_not_mem_lowerCharacter (Ne.symm notFirst)

theorem brace_not_mem_capitalized
    (noOpening : '\x7b' ∉ text) :
    '\x7b' ∉ capitalized text := by
  cases text with
  | nil =>
      exact noOpening
  | cons character text =>
      obtain ⟨notFirst, notRest⟩ := not_or.mp (List.mem_cons.not.mp noOpening)
      rw [capitalized, List.mem_append, not_or]
      exact ⟨brace_not_mem_titleCharacter (Ne.symm notFirst),
        brace_not_mem_lowerAfter notRest⟩

theorem mem_of_mem_splitWhere
    {isSeparator : Char → Bool}
    {piece : List Char}
    (isPiece : piece ∈ splitWhere isSeparator text)
    (member : character ∈ piece) :
    character ∈ text :=
  (mem_and_outside_of_mem_splitWhere isPiece character member).1

end Text

namespace Naming

theorem brace_not_mem_keptPieces
    {pieces : List Value}
    {kept : List Char}
    (made : keptPieces pieces = .ok kept) :
    '\x7b' ∉ kept := by
  induction pieces generalizing kept with
  | nil =>
      cases made
      exact List.not_mem_nil
  | cons piece pieces inductionHypothesis =>
      simp only [keptPieces, bind_eq_ok, pure_eq_ok] at made
      obtain ⟨text, _, rest, restMade, rfl⟩ := made
      rw [List.mem_append, not_or]
      refine ⟨?_, inductionHypothesis restMade⟩
      split
      · rename_i isKept
        simp only [Naming.isKept, consistsOf, Bool.or_eq_true, Bool.and_eq_true,
          List.all_eq_true] at isKept
        rcases isKept with ⟨_, allMembers⟩ | ⟨_, allMembers⟩
        · exact fun member => absurd (allMembers _ member) (by decide)
        · exact fun member => absurd (allMembers _ member) (by decide)
      · exact List.not_mem_nil

theorem brace_not_mem_className
    {workflow : Value}
    {name : String}
    (named : className workflow = .ok name) :
    '\x7b' ∉ name.toList := by
  simp only [className, bind_eq_ok, pure_eq_ok] at named
  obtain ⟨written, _, pieces, _, kept, keptIs, rfl⟩ := named
  have pascal : '\x7b' ∉ pascalCase kept := by
    simp only [pascalCase, List.mem_flatMap, not_exists, not_and]
    intro word isWord
    refine Text.brace_not_mem_capitalized fun member =>
      brace_not_mem_keptPieces keptIs ?_
    exact Text.mem_of_mem_splitWhere (List.mem_filter.mp isWord).1 member
  rw [String.toList_ofList]
  unfold startedAsClass
  split
  · decide
  · split
    · assumption
    · rw [List.mem_append, not_or]
      exact ⟨by decide, pascal⟩

end Naming

namespace Class

variable {code : String}

variable {language : Language} {names : List String} {tags : List (List Char)}

theorem fieldsFor_parameterFields
    (operation : Operation) :
    (Generator.parameterFields names).fieldsFor operation =
      .ok (names.map fun name => (name, .text "mixed")) :=
  rfl

/-- Lines made of names have only the tags that the names have. -/
theorem tagsIn_lines
    {line : String × Value → String}
    {separator : String}
    (firm : Firm tags separator.toList)
    (lineTags : ∀ name, TagsIn tags name.toList →
      TagsIn tags (line (name, .text "mixed")).toList)
    (namesTags : ∀ name ∈ names, TagsIn tags name.toList) :
    TagsIn tags (Text.join separator
      ((names.map fun name => (name, Value.text "mixed")).map
        line)).toList := by
  rw [Text.join_toList]
  refine .intercalate firm ?_
  simp only [List.forall_mem_map]
  exact fun name member => lineTags name (namesTags name member)

theorem tagsIn_mixed : TagsIn tags (Value.text "mixed").display.toList :=
  .of_not_mem (by decide)

theorem tagsIn_phpConstructor
    (namesTags : ∀ name ∈ names, TagsIn tags name.toList)
    (made : phpConstructor (Generator.parameterFields names) = .ok code) :
    TagsIn tags code.toList := by
  unfold phpConstructor at made
  split at made
  · rw [fieldsFor_parameterFields] at made
    obtain rfl := pure_eq_ok.mp made
    refine tagsIn_append_text _ (by decide)
      (tagsIn_append_firm ?_ (firm_toList _ (by decide)))
    refine tagsIn_around (tagsIn_append_firm ?_ (firm_toList _ (by decide)))
      (firm_toList _ (by decide)) ?_
    · refine tagsIn_around (tagsIn_append_firm (tagsIn_firm_append ?_ ?_) ?_) ?_
        ?_
      · exact firm_toList _ (by decide)
      · refine tagsIn_lines (firm_toList _ (by decide))
          (fun name nameTags => ?_) namesTags
        refine tagsIn_around (tagsIn_around ?_ ?_ nameTags)
          (firm_toList _ (by decide)) nameTags
        · exact tagsIn_firm_append (firm_toList _ (by decide)) tagsIn_mixed
        · exact firm_toList _ (by decide)
      · exact firm_toList _ (by decide)
      · exact firm_toList _ (by decide)
      · refine tagsIn_lines (firm_toList _ (by decide))
          (fun name nameTags => ?_) namesTags
        refine tagsIn_append_text _ (by decide) ?_
        exact tagsIn_around tagsIn_mixed (firm_toList _ (by decide)) nameTags
    · apply tagsIn_join
      simp only [List.forall_mem_map]
      intro name member
      have nameTags := namesTags name member
      exact firm_around (firm_around (firm_toList _ (by decide)) nameTags
        (firm_toList _ (by decide))) nameTags (firm_toList _ (by decide))
  · obtain rfl := pure_eq_ok.mp made
    refine tagsIn_append_text _ (by decide)
      (tagsIn_append_firm (tagsIn_append_firm ?_ ?_) ?_)
    · exact (firm_toList _ (by decide)).tags
    · exact firm_toList _ (by decide)
    · exact firm_toList _ (by decide)

theorem tagsIn_pythonConstructor
    (namesTags : ∀ name ∈ names, TagsIn tags name.toList)
    (made : pythonConstructor (Generator.parameterFields names) = .ok code) :
    TagsIn tags code.toList := by
  have remarks : ∀ name ∈ names, TagsIn tags ("        " ++ name ++ ": " ++
      (Value.text "mixed").display ++ " - Parâmetro " ++ name).toList := by
    intro name member
    have nameTags := namesTags name member
    refine tagsIn_around
      (tagsIn_around ?_ (firm_toList _ (by decide)) tagsIn_mixed)
      (firm_toList _ (by decide)) nameTags
    exact tagsIn_firm_append (firm_toList _ (by decide)) nameTags
  have assignments :
      ∀ name ∈ names, TagsIn tags ("        self.params['" ++ name ++
      "'] = kwargs.get('" ++ name ++ "')").toList := by
    intro name member
    have nameTags := namesTags name member
    exact tagsIn_append_firm
      (tagsIn_around (tagsIn_firm_append (firm_toList _ (by decide)) nameTags)
        (firm_toList _ (by decide)) nameTags)
      (firm_toList _ (by decide))
  have opened :
      ∀ line ∈ ["        \"\"\"", "        Inicializa a classe do workflow."],
      TagsIn tags line.toList :=
    fun line member => .of_no_opening (by revert line; decide)
  have closed : ∀ line ∈ ["        \"\"\"",
      "        self.context: Dict[str, Any] = \x7b\x7d",
      "        self.params: Dict[str, Any] = \x7b\x7d"],
      TagsIn tags line.toList :=
    fun line member => .of_no_opening (by revert line; decide)
  have empty : TagsIn tags "".toList := .of_not_mem (by decide)
  have fromLines :
      ∀ lines : List String, (∀ line ∈ lines, TagsIn tags line.toList) →
      TagsIn tags (Text.ofLines lines).toList := by
    intro lines linesTags
    rw [Text.ofLines, Text.join_toList]
    exact .intercalate (firm_toList _ (by decide))
      (List.forall_mem_map.mpr linesTags)
  dsimp only [pythonConstructor] at made
  rw [fieldsFor_parameterFields] at made
  split at made
  · obtain ⟨fields, fieldsAre, made⟩ := bind_eq_ok.mp made
    cases fieldsAre
    split at made
    · obtain rfl := pure_eq_ok.mp made
      exact fromLines _ (List.forall_mem_append.mpr ⟨opened, closed⟩)
    · obtain rfl := pure_eq_ok.mp made
      refine fromLines _ (List.forall_mem_append.mpr ⟨List.forall_mem_append.mpr
        ⟨List.forall_mem_append.mpr
          ⟨opened, List.forall_mem_cons.mpr ⟨empty, ?_⟩⟩, closed⟩,
        List.forall_mem_cons.mpr ⟨empty, ?_⟩⟩)
      · exact List.forall_mem_map.mpr (List.forall_mem_map.mpr remarks)
      · exact List.forall_mem_map.mpr (List.forall_mem_map.mpr assignments)
  · obtain ⟨fields, fieldsAre, made⟩ := bind_eq_ok.mp made
    cases fieldsAre
    rw [if_pos (by rfl)] at made
    obtain rfl := pure_eq_ok.mp made
    exact fromLines _ (List.forall_mem_append.mpr ⟨opened, closed⟩)

theorem tagsIn_javascriptConstructor
    (namesTags : ∀ name ∈ names, TagsIn tags name.toList)
    (made : javascriptConstructor (Generator.parameterFields names) =
      .ok code) :
    TagsIn tags code.toList := by
  unfold javascriptConstructor at made
  split at made
  · rw [fieldsFor_parameterFields] at made
    obtain rfl := pure_eq_ok.mp made
    refine tagsIn_append_text _ (by decide) ?_
    refine tagsIn_around (tagsIn_append_firm
      (tagsIn_around (tagsIn_firm_append ?_ ?_) ?_ ?_) ?_) ?_ ?_
    · exact firm_toList _ (by decide)
    · refine tagsIn_lines (firm_toList _ (by decide)) (fun name nameTags => ?_)
        namesTags
      have typeFirm :
          Firm tags ("      * @param \x7b" ++ (Value.text "mixed").display ++
          "\x7d ").toList :=
        firm_of_isFirm (by decide +kernel)
      exact tagsIn_around (tagsIn_firm_append typeFirm nameTags)
        (firm_toList _ (by decide)) nameTags
    · exact firm_toList _ (by decide)
    · refine tagsIn_lines (firm_toList _ (by decide)) (fun name nameTags => ?_)
        namesTags
      exact tagsIn_append_text _ (by decide) nameTags
    · exact firm_toList _ (by decide)
    · exact firm_toList _ (by decide)
    · refine tagsIn_lines (firm_toList _ (by decide)) (fun name nameTags => ?_)
        namesTags
      exact tagsIn_append_firm
        (tagsIn_around (tagsIn_firm_append (firm_toList _ (by decide)) nameTags)
          (firm_toList _ (by decide)) nameTags)
        (firm_toList _ (by decide))
  · obtain rfl := pure_eq_ok.mp made
    exact tagsIn_append_text _ (by decide) (firm_toList _ (by decide)).tags

/-- A constructor has only the tags that the names of its parameters have. -/
theorem tagsIn_constructor
    (namesTags : ∀ name ∈ names, TagsIn tags name.toList)
    (made : constructor language.code (Generator.parameterFields names) =
      .ok code) :
    TagsIn tags code.toList := by
  cases language with
  | php =>
      exact tagsIn_phpConstructor namesTags made
  | python =>
      exact tagsIn_pythonConstructor namesTags made
  | javascript =>
      exact tagsIn_javascriptConstructor namesTags made

/-- Every tag in a constructor stands in the name of one of its parameters. -/
theorem exists_name_of_tag_constructor
    {name : List Char}
    (made : constructor language.code (Generator.parameterFields names) =
      .ok code)
    (isName : IsTagName name)
    (found : tag name <:+: code.toList) :
    ∃ parameter ∈ names, tag name <:+: parameter.toList := by
  by_contra nowhere
  -- The tags of the parameters are among the sublists of their names.
  have tags : ∀ parameter ∈ names, TagsIn
      ((names.flatMap fun other => other.toList.sublists).filter (· ≠ name))
        parameter.toList := by
    intro parameter member other isOther inParameter
    rw [List.mem_filter, List.mem_flatMap]
    refine ⟨⟨parameter, member, List.mem_sublists.mpr ?_⟩, ?_⟩
    · exact (((List.sublist_append_left _ _).cons _).cons _).trans
        inParameter.sublist
    · rw [decide_eq_true_eq]
      rintro rfl
      exact nowhere ⟨parameter, member, inParameter⟩
  have isOther :=
    (List.mem_filter.mp (tagsIn_constructor tags made name isName found)).2
  simp at isOther

theorem tagFree_imports
    {workflow : Value}
    (made : imports language.code workflow = .ok code) :
    TagFree code.toList := by
  simp only [imports, bind_eq_ok, pure_eq_ok] at made
  obtain ⟨_, _, _, _, used, _, rfl⟩ := made
  rw [Text.ofLines, Text.join_toList]
  refine .intercalate (firm_toList _ (by decide)) ?_
  refine List.forall_mem_map.mpr (List.forall_mem_map.mpr fun provider _ => ?_)
  have noOpening : '\x7b' ∉ provider.credentialClass.toList := by
    cases provider <;> decide
  cases language with
  | php =>
      exact .of_not_mem (brace_not_mem_append
        (brace_not_mem_append (by decide) noOpening) (by decide))
  | python =>
      exact .of_not_mem (brace_not_mem_append (brace_not_mem_append
        (brace_not_mem_append (by decide) noOpening) (by decide)) noOpening)
  | javascript =>
      have opened :
          TagFree ("const \x7b " ++ provider.credentialClass).toList :=
        tagsIn_append (.of_no_opening (by decide)) (.of_not_mem noOpening)
          (.of_getLast? (by simp; decide))
      exact tagsIn_append_firm (tagsIn_around opened (firm_toList _ (by decide))
        (.of_not_mem noOpening)) (firm_toList _ (by decide))

theorem brace_not_mem_call
    {name : String}
    (noOpening : '\x7b' ∉ name.toList) :
    '\x7b' ∉ ("$this->" ++ name ++ "();").toList :=
  brace_not_mem_append (brace_not_mem_append (by decide) noOpening) (by decide)

end Class

end Flowgen
