import Flowgen.Method.Code
import Flowgen.Proofs.CleanValues
import Flowgen.Proofs.Filling
import Flowgen.Proofs.MethodNames

namespace Flowgen

/-!
# What is put into method templates

The contents of a method's placeholders have no tags if the strings of the node
have none, so a method has only the tags that its template leaves over.
-/

open Template

namespace Naming

variable {name : String} {node : Value}

variable {character : Char}

theorem toLower_ne_brace
    (notBrace : character ≠ '\x7b') :
    character.toLower ≠ '\x7b' := by
  unfold Char.toLower
  split
  · rename_i isUpper
    intro same
    have low : 65 ≤ character.toNat := isUpper.1
    have high : character.toNat ≤ 90 := isUpper.2
    have value : (character.val + 32).toNat = 123 :=
      congrArg (fun other => other.val.toNat) same
    rw [UInt32.toNat_add] at value
    simp at value
    omega
  · exact notBrace

theorem toUpper_ne_brace
    (notBrace : character ≠ '\x7b') :
    character.toUpper ≠ '\x7b' := by
  unfold Char.toUpper
  split
  · rename_i isLower
    intro same
    have low : 97 ≤ character.toNat := isLower.1
    have high : character.toNat ≤ 122 := isLower.2
    have value : (character.val + 4294967264).toNat = 123 :=
      congrArg (fun other => other.val.toNat) same
    rw [UInt32.toNat_add] at value
    simp at value
    omega
  · exact notBrace

theorem isAlphanum_of_mem_methodName
    (named : methodName node = .ok name) :
    ∀ character ∈ name.toList, character.isAlphanum = true := by
  have fallback : ∀ character ∈ fallbackName, character.isAlphanum = true := by
    decide
  have camel : ∀ value camel, camelCaseOf value = .ok camel →
      ∀ character ∈ camel.toList, character.isAlphanum = true := by
    intro value camel made
    unfold camelCaseOf at made
    split at made
    · cases content : value.textAs .decomposition with
      | error fault =>
          simp [content, Except.map] at made
      | ok text =>
          simp only [content, Except.map, Except.ok.injEq] at made
          rw [← made, String.toList_ofList, camelCase, orFallback]
          split
          · exact fallback
          · exact fun character member => (List.mem_filter.mp member).2
    · cases made
      exact fallback
  have started :
      ∀ text : List Char, (∀ character ∈ text, character.isAlphanum = true) →
      ∀ character ∈ startedByLetter text, character.isAlphanum = true := by
    intro text alphanumeric
    cases text with
    | nil =>
        exact fallback
    | cons first rest =>
        obtain ⟨ofFirst, ofRest⟩ := List.forall_mem_cons.mp alphanumeric
        simp only [startedByLetter]
        split
        · exact List.forall_mem_cons.mpr ⟨(isAlphanum_case ofFirst).1, ofRest⟩
        · exact List.forall_mem_append.mpr ⟨fallback, fun character =>
            isAlphanum_of_mem_capitalizedWord
              ⟨List.cons_ne_nil _ _, alphanumeric⟩⟩
  simp only [methodName, bind_eq_ok, pure_eq_ok] at named
  obtain ⟨source, _, written, made, rfl⟩ := named
  rw [methodNameOf, String.toList_ofList, unreserved]
  split
  · exact List.forall_mem_append.mpr ⟨started _ (camel _ _ made), by decide⟩
  · exact started _ (camel _ _ made)

theorem methodName_ne_nil
    (named : methodName node = .ok name) :
    name.toList ≠ [] := by
  have started : ∀ text, startedByLetter text ≠ [] := by
    intro text
    unfold startedByLetter
    split
    · decide
    · split
      · exact List.cons_ne_nil _ _
      · exact List.append_ne_nil_of_left_ne_nil (by decide) _
  simp only [methodName, bind_eq_ok, pure_eq_ok] at named
  obtain ⟨source, _, written, _, rfl⟩ := named
  rw [methodNameOf, String.toList_ofList, unreserved]
  split
  · exact List.append_ne_nil_of_left_ne_nil (started _) _
  · exact started _

theorem brace_not_mem_methodName
    (named : methodName node = .ok name) :
    '\x7b' ∉ name.toList := by
  intro member
  exact absurd (isAlphanum_of_mem_methodName named _ member) (by decide)

end Naming

namespace Method

variable {slots : List Slot} {code : String}

variable {value node : Value} {name type : String}

theorem tagFree_inQuotes
    (clean : value.Clean) :
    TagFree (inQuotes value).toList := by
  refine tagsIn_append_firm (tagsIn_firm_append ?_ clean.display) ?_
  · exact firm_toList _ (by decide)
  · exact firm_toList _ (by decide)

theorem tagFree_inQuotesOrEmpty
    (clean : value.Clean) :
    TagFree (inQuotesOrEmpty value).toList := by
  unfold inQuotesOrEmpty
  split
  · exact tagFree_inQuotes clean
  · exact .of_not_mem (by decide)

theorem tagFree_headersCode
    (clean : value.Clean) :
    TagFree (headersCode value).toList := by
  unfold headersCode
  split
  · rename_i fields
    have items :
        ∀ item ∈ (fields.map headerItem).map String.toList, TagFree item := by
      refine List.forall_mem_map.mpr
        (List.forall_mem_map.mpr fun field member => ?_)
      obtain ⟨nameFree, valueClean⟩ := Value.clean_object.mp clean field member
      refine tagsIn_append_firm ?_ (firm_toList _ (by decide))
      refine tagsIn_around ?_ (firm_toList _ (by decide))
        valueClean.unwrapped.display
      exact tagsIn_firm_append (firm_toList _ (by decide)) nameFree
    refine tagsIn_append_firm
      (tagsIn_firm_append (firm_toList _ (by decide)) ?_)
      (firm_toList _ (by decide))
    rw [Text.join_toList]
    exact .intercalate (firm_toList _ (by decide)) items
  · exact .of_not_mem (by decide)

theorem tagFree_bodyCode
    (clean : value.Clean) :
    TagFree (bodyCode value).toList := by
  unfold bodyCode
  split
  · have escapes : Escapes fun character =>
        if character = '\n' then "\n    ".toList else [character] := by
      intro character
      by_cases isBreak : character = '\n'
      · simp only [if_pos isBreak]
        exact .inr ⟨'\n', "    ".toList, by decide, by decide, by decide⟩
      · simp only [if_neg isBreak]
        exact .inl trivial
    have breakIs : "\n".toList = ['\n'] := by decide
    rw [Text.replace_toList, breakIs, replaceAll_singleton]
    have printed :
        (Json.print (some 8) value).toList = Json.written (some 8) 0 value :=
      String.toList_ofList
    rw [printed]
    exact escapes.tagsIn (Value.calm_written 8 0 value clean).free
  · exact .of_not_mem (by decide)

theorem clean_promptValue
    (clean : value.Clean) :
    (promptValue value).Clean := by
  unfold promptValue
  split
  · rename_i found
    exact clean.field found
  · rename_i found
    exact clean.field found
  · exact clean

theorem tagFree_toolLines
    {tools : List Value}
    {number : Nat}
    {lines : String}
    (clean : ∀ tool ∈ tools, tool.Clean)
    (made : toolLines number tools = .ok lines) :
    TagFree lines.toList := by
  induction tools generalizing number lines with
  | nil =>
      cases made
      exact .of_not_mem (by decide)
  | cons tool tools inductionHypothesis =>
      obtain ⟨toolClean, restClean⟩ := List.forall_mem_cons.mp clean
      simp only [toolLines, toolLine, bind_eq_ok, pure_eq_ok] at made
      obtain ⟨_, ⟨name, nameIs, description, descriptionIs, rfl⟩, rest,
        restMade, rfl⟩ := made
      have fallbackFree : TagFree ("tool_" ++ toString number).toList :=
        .of_not_mem (brace_not_mem_append (by decide)
          (brace_not_mem_natural number))
      have nameFree :=
        (toolClean.get nameIs (Value.clean_text.mpr fallbackFree)).display
      have descriptionFree := (toolClean.get descriptionIs (Value.clean_text.mpr
        (.of_not_mem (by decide)))).display
      refine tagsIn_around ?_ (firm_toList _ (by decide))
        (inductionHypothesis restClean restMade)
      refine tagsIn_around ?_ (firm_toList _ (by decide)) descriptionFree
      exact tagsIn_firm_append (firm_toList _ (by decide)) nameFree

theorem tagFree_toolsCode
    (clean : value.Clean)
    (made : toolsCode value = .ok code) :
    TagFree code.toList := by
  unfold toolsCode at made
  split at made
  · cases made
    exact .of_not_mem (by decide)
  · rename_i tools _
    simp only [bind_eq_ok, pure_eq_ok] at made
    obtain ⟨lines, linesMade, rfl⟩ := made
    have linesFree := tagFree_toolLines (Value.clean_list.mp clean) linesMade
    refine tagsIn_append_firm (tagsIn_around ?_ ?_ linesFree)
      (firm_toList _ (by decide))
    · exact (firm_toList _ (by decide)).tags
    · exact firm_toList _ (by decide)
  · cases made
    exact .of_not_mem (by decide)

theorem brace_not_mem_outputKey
    (noOpening : '\x7b' ∉ name.toList) :
    '\x7b' ∉ (outputKey name).toList :=
  brace_not_mem_append noOpening (by decide)

theorem brace_not_mem_emptyOutput
    (noOpening : '\x7b' ∉ name.toList) :
    '\x7b' ∉ (emptyOutput name).toList :=
  brace_not_mem_append (brace_not_mem_append (by decide)
    (brace_not_mem_outputKey noOpening)) (by decide)

theorem clean_fallback
    {content : String}
    (noOpening : '\x7b' ∉ content.toList) :
    (Value.text content).Clean :=
  Value.clean_text.mpr (.of_not_mem noOpening)

theorem tagFree_functionCode
    (clean : value.Clean)
    (noOpening : '\x7b' ∉ name.toList)
    (made : functionCode name value = .ok code) :
    TagFree code.toList := by
  simp only [functionCode, bind_eq_ok] at made
  obtain ⟨written, writtenIs, made⟩ := made
  have writtenClean := clean.get writtenIs (clean_fallback (by decide))
  split at made
  · simp only [bind_eq_ok, pure_eq_ok, Value.textFor_eq_ok] at made
    obtain ⟨text, rfl, rfl⟩ := made
    have textFree := Value.clean_text.mp writtenClean
    refine tagsIn_around ?_ (firm_toList _ (by decide))
      (.of_not_mem (brace_not_mem_emptyOutput noOpening))
    refine tagsIn_firm_append (firm_toList _ (by decide)) ?_
    rw [String.toList_ofList]
    exact textFree.of_infix (List.take_prefix 100 _).isInfix
  · rw [pure_eq_ok] at made
    subst made
    exact tagsIn_firm_append (firm_toList _ (by decide))
      (.of_not_mem (brace_not_mem_emptyOutput noOpening))

theorem tagFree_nodeCode
    (clean : node.Clean)
    (typeFree : TagFree type.toList)
    (made : nodeCode node type = .ok code) :
    TagFree code.toList := by
  simp only [nodeCode, bind_eq_ok] at made
  obtain ⟨parameters, parametersAre, name, named, made⟩ := made
  have noOpening := Naming.brace_not_mem_methodName named
  split at made
  · exact tagFree_functionCode
      (clean.get parametersAre (Value.clean_of_strings_eq_nil rfl))
      noOpening made
  · split at made
    · rw [pure_eq_ok] at made
      subst made
      exact .of_not_mem (by decide)
    · simp only [bind_eq_ok, pure_eq_ok] at made
      obtain ⟨nodeName, nodeNameIs, rfl⟩ := made
      have nameClean := clean.get nodeNameIs (clean_fallback (by decide))
      refine tagsIn_around ?_ (firm_toList _ (by decide))
        (.of_not_mem (brace_not_mem_emptyOutput noOpening))
      refine tagsIn_around ?_ (firm_toList _ (by decide)) nameClean.display
      exact tagsIn_firm_append (firm_toList _ (by decide)) typeFree

theorem tagFree_defaultMethod
    (clean : node.Clean)
    (made : defaultMethod node = .ok code) :
    TagFree code.toList := by
  simp only [defaultMethod, bind_eq_ok, pure_eq_ok] at made
  obtain ⟨name, named, nodeName, nodeNameIs, type, typeIs, rfl⟩ := made
  have noOpening := Naming.brace_not_mem_methodName named
  have nameClean := clean.get nodeNameIs (clean_fallback (by decide))
  have typeClean := clean.get typeIs (clean_fallback (by decide))
  refine tagsIn_append_text _ (by decide)
    (tagsIn_around ?_ (firm_toList _ (by decide))
    (.of_not_mem (brace_not_mem_emptyOutput noOpening)))
  refine tagsIn_around ?_ (firm_toList _ (by decide)) typeClean.display
  refine tagsIn_around ?_ (firm_toList _ (by decide)) nameClean.display
  exact .of_not_mem (brace_not_mem_append (by decide) noOpening)

/-- A parameter, or else a text in its place. -/
def given (parameters : Value) (name fallback : String) : Value :=
  (parameters.field? name).getD (.text fallback)

/-- The tools of a node, under either of their names. -/
def givenTools (parameters : Value) : Value :=
  ((parameters.field? "tools").getD (.list [])).orElse
    ((parameters.field? "availableTools").getD (.list []))

theorem commonSlots_eq_ok
    (made : commonSlots node = .ok slots) :
    ∃ (name provider toolsText : String) (parameters options : Value)
        (temperature : Binary64) (maxTokens : Int),
      Naming.methodName node = .ok name ∧
      node.get "parameters" (.object []) = .ok parameters ∧
      parameters.get "options" (.object []) = .ok options ∧
      (given parameters "provider" "openai").unwrapped = .text provider ∧
      toolsCode (givenTools parameters) = .ok toolsText ∧
      slots = [
        ⟨"output_key", outputKey name⟩,
        ⟨"url", inQuotes (given parameters "url" "")⟩,
        ⟨"method", inQuotes (given parameters "method" "GET")⟩,
        ⟨"headers", headersCode ((options.field? "headers").getD (.object []))⟩,
        ⟨"body", bodyCode ((parameters.field? "body").getD (.object []))⟩,
        ⟨"prompt", inQuotesOrEmpty (promptValue
          ((given parameters "prompt" "").orElse
            (given parameters "text" "")))⟩,
        ⟨"model", inQuotes ((given parameters "model" "").orElse
          (given parameters "modelName" "gpt-3.5-turbo")).unwrapped⟩,
        ⟨"temperature", temperature.display⟩,
        ⟨"max_tokens", toString maxTokens⟩,
        ⟨"system_message", inQuotesOrEmpty
          ((given parameters "systemMessage" "").orElse
          (given parameters "system_message" "")).unwrapped⟩,
        ⟨"api_provider", inQuotes
          (given parameters "provider" "openai").unwrapped⟩,
        ⟨"api_key", keyCode (.ofName provider)⟩,
        ⟨"api_url", "'" ++ (Provider.ofName provider).address ++ "'"⟩,
        ⟨"tools_code", toolsText⟩,
        ⟨"additional_code", toolsRemark (givenTools parameters)⟩] := by
  unfold commonSlots at made
  obtain ⟨name, named, made⟩ := bind_eq_ok.mp made
  obtain ⟨parameters, areParameters, made⟩ := bind_eq_ok.mp made
  obtain ⟨options, areOptions, made⟩ := bind_eq_ok.mp made
  -- From the headers on, what is read is known; only what is computed from it
  -- can fail.
  iterate 7 replace made := Value.eq_ok_of_get_bind made
  obtain ⟨temperature, _, made⟩ := bind_eq_ok.mp made
  iterate 2 replace made := Value.eq_ok_of_get_bind made
  obtain ⟨maxTokens, _, made⟩ := bind_eq_ok.mp made
  iterate 3 replace made := Value.eq_ok_of_get_bind made
  obtain ⟨provider, isProvider, made⟩ := bind_eq_ok.mp made
  iterate 2 replace made := Value.eq_ok_of_get_bind made
  obtain ⟨toolsText, toolsMade, made⟩ := bind_eq_ok.mp made
  iterate 2 replace made := Value.eq_ok_of_get_bind made
  exact ⟨name, provider, toolsText, parameters, options, temperature, maxTokens,
    named,
    areParameters, areOptions, Value.textFor_eq_ok.mp isProvider, toolsMade,
    (pure_eq_ok.mp made).symm⟩

/-- The names of the common placeholders, in their order. -/
def commonNames : List String :=
  ["output_key", "url", "method", "headers", "body", "prompt", "model",
    "temperature",
   "max_tokens", "system_message", "api_provider", "api_key", "api_url",
   "tools_code",
   "additional_code"]

theorem commonSlots_names
    (made : commonSlots node = .ok slots) :
    slots.map Slot.name = commonNames := by
  obtain ⟨_, _, _, _, _, _, _, _, _, _, _, _, rfl⟩ := commonSlots_eq_ok made
  rfl

theorem tagFree_commonSlots
    (clean : node.Clean)
    (made : commonSlots node = .ok slots) :
    ∀ slot ∈ slots, TagFree slot.content.toList := by
  obtain ⟨name, provider, toolsText, parameters, options, temperature,
    maxTokens, named,
    areParameters, areOptions, _, toolsMade, rfl⟩ := commonSlots_eq_ok made
  have noObject : (Value.object []).Clean := Value.clean_of_strings_eq_nil rfl
  have noList : (Value.list []).Clean := Value.clean_of_strings_eq_nil rfl
  have noOpening := Naming.brace_not_mem_methodName named
  have parametersClean := clean.get areParameters noObject
  have optionsClean := parametersClean.get areOptions noObject
  have givenClean : ∀ name fallback, '\x7b' ∉ fallback.toList →
      (given parameters name fallback).Clean :=
    fun name fallback noOpening =>
      parametersClean.fieldOr (clean_fallback noOpening)
  have toolsClean : (givenTools parameters).Clean :=
    (parametersClean.fieldOr noList).orElse (parametersClean.fieldOr noList)
  simp only [List.forall_mem_cons]
  refine ⟨?_, ?_, ?_, ?_, ?_, ?_, ?_, ?_, ?_, ?_, ?_, ?_, ?_, ?_, ?_, by simp⟩
  · exact .of_not_mem (brace_not_mem_outputKey noOpening)
  · exact tagFree_inQuotes (givenClean _ _ (by decide))
  · exact tagFree_inQuotes (givenClean _ _ (by decide))
  · exact tagFree_headersCode (optionsClean.fieldOr noObject)
  · exact tagFree_bodyCode (parametersClean.fieldOr noObject)
  · exact tagFree_inQuotesOrEmpty (clean_promptValue
      ((givenClean _ _ (by decide)).orElse (givenClean _ _ (by decide))))
  · exact tagFree_inQuotes
      ((givenClean _ _ (by decide)).orElse
        (givenClean _ _ (by decide))).unwrapped
  · exact .of_not_mem (brace_not_mem_real (by decide) (by decide) temperature)
  · exact .of_not_mem (brace_not_mem_integer maxTokens)
  · exact tagFree_inQuotesOrEmpty
      ((givenClean _ _ (by decide)).orElse
        (givenClean _ _ (by decide))).unwrapped
  · exact tagFree_inQuotes (givenClean _ _ (by decide)).unwrapped
  · cases Provider.ofName provider <;> exact .of_not_mem (by decide)
  · cases Provider.ofName provider <;> exact .of_not_mem (by decide)
  · exact tagFree_toolsCode toolsClean toolsMade
  · unfold toolsRemark
    split <;> exact .of_not_mem (by decide)

theorem slots_eq_ok
    (made : Method.slots node type = .ok slots) :
    ∃ name back, Naming.methodName node = .ok name ∧
      slots = ⟨"method_name", name⟩ :: back ∧ slots.map Slot.name =
        "method_name" :: "generated_code" :: commonNames ++
        ["generated_code"] := by
  simp only [Method.slots, bind_eq_ok, pure_eq_ok] at made
  obtain ⟨name, named, code, _, common, commonMade, rfl⟩ := made
  exact ⟨name, _, named, rfl, by simp [commonSlots_names commonMade]⟩

theorem tagFree_slots
    (clean : node.Clean)
    (typeFree : TagFree type.toList)
    (made : Method.slots node type = .ok slots) :
    ∀ slot ∈ slots, TagFree slot.content.toList := by
  simp only [Method.slots, bind_eq_ok, pure_eq_ok] at made
  obtain ⟨name, named, code, coded, common, commonMade, rfl⟩ := made
  have codeFree := tagFree_nodeCode clean typeFree coded
  simp only [List.cons_append, List.forall_mem_cons, List.forall_mem_append]
  exact ⟨.of_not_mem (Naming.brace_not_mem_methodName named), codeFree,
    tagFree_commonSlots clean commonMade, codeFree, by simp⟩

end Method

end Flowgen
