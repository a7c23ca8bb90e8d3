import Flowgen.Proofs.GeneratedClass
import Flowgen.Proofs.NodeTemplates
import Flowgen.Proofs.SupportedExpressions

namespace Flowgen

/-!
# The prompts of agents

The prompt of an agent is not read as an expression: the method for the agent
assigns the text of the prompt as it is written, in quotes, also where an
access to the parameters of the class is what the text stands for.
-/

open Template Session

namespace Text

/--
What ends in a character that is not blank is kept when white space is dropped
behind it.
-/
theorem dropEnd_append_cons
    {last : Char}
    (endsFirm : isBlank last = false)
    (text rest : List Char) :
    dropEnd isBlank (text ++ last :: rest) =
      text ++ last :: dropEnd isBlank rest := by
  rw [dropEnd, dropEnd, List.reverse_append, List.reverse_cons,
    List.append_assoc, List.dropWhile_append]
  split
  · rename_i allBlank
    simp [List.isEmpty_iff.mp allBlank, endsFirm]
  · simp

/--
Trimming a text keeps all that stands between two characters that are not
blank.
-/
theorem trimmed_of_ends
    {lead middle rest : List Char}
    {first last : Char}
    (blankLead : ∀ character ∈ lead, isBlank character = true)
    (startsFirm : isBlank first = false)
    (endsFirm : isBlank last = false) :
    trimmed (lead ++ (first :: middle ++ last :: rest)) =
      first :: middle ++ last :: dropEnd isBlank rest := by
  rw [trimmed, dropStart, List.dropWhile_append_of_pos blankLead,
    List.cons_append,
    List.dropWhile_cons_of_neg (by simp [startsFirm]), ← List.cons_append,
    dropEnd_append_cons endsFirm]

/-- How the assignment of a variable starts. -/
def assigns (variableName : List Char) : List Char :=
  '$' :: variableName ++ " = ".toList

/--
The text that a variable is first assigned: what follows up to the end of the
statement.
-/
def assigned? (variableName : List Char) : List Char → Option (List Char)
  | [] => none
  | character :: text =>
      match after? (assigns variableName) (character :: text) with
      | some rest => some (rest.takeWhile fun character => character != ';')
      | none => assigned? variableName text

theorem assigned?_append
    {front value : List Char}
    (noVariable : '$' ∉ front)
    (noEnd : ';' ∉ value)
    (variableName rest : List Char) :
    assigned? variableName (front ++
      (assigns variableName ++ (value ++ ';' :: rest))) = some value := by
  induction front with
  | nil =>
      have found : after? (assigns variableName)
          (assigns variableName ++ (value ++ ';' :: rest)) =
            some (value ++ ';' :: rest) :=
        after?_eq_some.mpr rfl
      have inside : ∀ character ∈ value, (character != ';') = true := by
        intro character member
        exact bne_iff_ne.mpr fun isEnd => noEnd (isEnd ▸ member)
      have valueIs : (value ++ ';' :: rest).takeWhile
          (fun character => character != ';') = value := by
        rw [List.takeWhile_append_of_pos inside]
        simp
      have starts : assigns variableName ++ (value ++ ';' :: rest) =
          '$' :: (variableName ++ " = ".toList ++ (value ++ ';' :: rest)) :=
        rfl
      rw [List.nil_append]
      rw [starts] at found ⊢
      rw [assigned?, found]
      exact congrArg some valueIs
  | cons character front inductionHypothesis =>
      rw [List.mem_cons, not_or] at noVariable
      obtain ⟨isOther, restOther⟩ := noVariable
      have elsewhere : after? (assigns variableName)
          (character :: (front ++
            (assigns variableName ++ (value ++ ';' :: rest)))) = none := by
        rw [after?_eq_none]
        exact fun starts => isOther (List.cons_prefix_cons.mp starts).1
      rw [List.cons_append, assigned?, elsewhere]
      exact inductionHypothesis restOther

end Text

namespace Template

variable {host : Host} {slots : List Slot}

/--
A slot fills its tag with its content, if no slot before it does and no tag is
in it.
-/
theorem filled_tag_of_split
    {front back : List Slot}
    {slot : Slot}
    (named : Named (front ++ slot :: back))
    (isFirst : ∀ other ∈ front, other.name ≠ slot.name)
    (free : TagFree slot.content.toList) :
    filled (front ++ slot :: back) (tag slot.name.toList) =
      slot.content.toList := by
  obtain ⟨frontNamed, restNamed⟩ := List.forall_mem_append.mp named
  obtain ⟨slotNamed, backNamed⟩ := List.forall_mem_cons.mp restNamed
  have kept : filled front (tag slot.name.toList) = tag slot.name.toList := by
    refine filled_eq_self frontNamed fun other member found =>
      isFirst other member ?_
    exact String.toList_injective
      (eq_of_tag_infix_tag (frontNamed other member) slotNamed found)
  have replaced : Text.replaceAll (tag slot.name.toList) slot.content.toList
      (tag slot.name.toList ++ []) = slot.content.toList ++
        Text.replaceAll (tag slot.name.toList) slot.content.toList [] :=
    Text.replaceAll_append_self (by simp [tag])
  have nothing :
      Text.replaceAll (tag slot.name.toList) slot.content.toList [] = [] := rfl
  rw [List.append_nil, nothing, List.append_nil] at replaced
  rw [filled_append, kept, filled_cons, replaced]
  exact filled_eq_self_of_tagFree backNamed free

/--
What a placeholder becomes by its own slot and by those that are filled after
it.
-/
theorem contentFor_settled_of_split
    {front later : List Slot}
    {slot : Slot}
    (isFirst : slot.name ∉ front.map Slot.name) :
    contentFor (settled (front ++ slot :: later)) slot.name.toList =
      filled later slot.content.toList := by
  induction front with
  | nil =>
      simp [contentFor, slotFor?, settled, fill_toList]
  | cons other front inductionHypothesis =>
      rw [List.map_cons, List.mem_cons, not_or] at isFirst
      have differs : other.name.toList ≠ slot.name.toList :=
        fun same => isFirst.1 (String.toList_injective same.symm)
      rw [← inductionHypothesis isFirst.2, List.cons_append, settled,
        contentFor, slotFor?,
        List.find?_cons_of_neg (by simpa using differs), ← slotFor?, contentFor]

/-- Of slots with different names each fills its tag with its content. -/
theorem filled_tag_of_mem
    {slot : Slot}
    (named : Named slots)
    (nodup : (slots.map fun slot => slot.name.toList).Nodup)
    (member : slot ∈ slots)
    (free : TagFree slot.content.toList) :
    filled slots (tag slot.name.toList) = slot.content.toList := by
  obtain ⟨front, back, rfl⟩ := List.append_of_mem member
  rw [List.map_append, List.map_cons] at nodup
  refine filled_tag_of_split named (fun other isOther same => ?_) free
  have inFront :=
    List.mem_map_of_mem (f := fun slot : Slot => slot.name.toList) isOther
  exact (List.nodup_append.mp nodup).2.2 _ inFront _ List.mem_cons_self
    (by rw [same])

theorem filled_append_firm
    {separator : List Char}
    (named : Named slots)
    (firm : Firm [] separator)
    (first second : List Char) :
    filled slots (first ++ (separator ++ second)) =
      filled slots first ++ (separator ++ filled slots second) := by
  obtain ⟨character, rest, separatorIs⟩ :=
    List.exists_cons_of_ne_nil firm.notNil
  have outside : isTagCharacter character = false :=
    firm.start character (by rw [separatorIs]; rfl)
  have divided : filled slots (first ++ (separator ++ second)) =
      filled slots first ++ filled slots (separator ++ second) := by
    rw [separatorIs, List.cons_append, filled_append_cons named outside,
      filled_cons_of_outside named outside]
  rw [divided, filled_tagFree_append named firm.tags firm.finish]

/-- How a method is declared, on a line of its own. -/
def declares : List Char :=
  '\n' :: ("    ".toList ++ "private function ".toList)

/-- How the method of an agent goes on after its brackets. -/
def agentSetup : List Char :=
  (": void\n    \x7b\n        try \x7b\n"
    ++ "            // Parâmetros do agente\n            ").toList

/-- What stands between the name of an agent's method and its prompt. -/
def agentLead : List Char :=
  "()".toList ++ (agentSetup ++ Text.assigns "prompt".toList)

/-- The method of an agent: remarks, its name, its prompt, and the rest. -/
def agentMethod (remarks name prompt rest : List Char) : List Char :=
  remarks ++ (declares ++ (name ++ (agentLead ++ (prompt ++ ';' :: rest))))

/--
Filling the method of an agent fills its name, its prompt and the rest by
themselves.
-/
theorem filled_agentMethod
    {remarks : List Char}
    (named : Named slots)
    (noOpening : '\x7b' ∉ remarks)
    (name prompt rest : List Char) :
    filled slots (agentMethod remarks name prompt rest) =
      agentMethod remarks (filled slots name) (filled slots prompt)
        (filled slots rest) := by
  have declaresFirm : Firm [] declares := firm_of_isFirm (by decide)
  have leadFirm : Firm [] agentLead := firm_of_isFirm (by decide)
  rw [agentMethod, filled_append_firm named declaresFirm,
    filled_append_firm named leadFirm,
    filled_append_cons named (by decide),
    filled_eq_self_of_tagFree named (.of_not_mem noOpening),
    agentMethod]

/-- The template for the methods of agents in PHP, as it is used. -/
def agentTemplate : String :=
  Text.trim (Text.ofLines Shipped.phpAgentCode)

theorem not_mem_toList
    {character : Char}
    (characters : List Char)
    (isAbsent : characters.contains character = false) :
    character ∉ (String.ofList characters).toList := by
  rw [String.toList_ofList]
  simpa using isAbsent

theorem brace_not_mem_remarks :
    ∀ line ∈ (Shipped.phpAgentCode.drop 1).take 8, '\x7b' ∉ line.toList := by
  simp only [Shipped.phpAgentCode, List.drop_succ_cons, List.drop_zero,
    List.take_succ_cons, List.take_zero, List.forall_mem_cons]
  refine ⟨?_, ?_, ?_, ?_, ?_, ?_, ?_, ?_, by simp⟩
  all_goals exact not_mem_toList _ (by decide)

/--
The lines for agents make a method with places for its name and its prompt.
-/
theorem exists_agentCode_eq :
    ∃ remarks rest, '\x7b' ∉ remarks ∧
      (Text.ofLines Shipped.phpAgentCode).toList = "    ".toList ++
        agentMethod ('/' :: remarks) (tag "method_name".toList)
          (tag "prompt".toList) rest := by
  have headIs : (Text.ofLines ((Shipped.phpAgentCode.drop 9).take 5)).toList =
      "    ".toList ++ "private function ".toList ++
      (tag "method_name".toList ++
        (agentLead ++ (tag "prompt".toList ++ [';']))) := by
    have lines : (Shipped.phpAgentCode.drop 9).take 5 = [_, _, _, _, _] := rfl
    unfold Text.ofLines agentLead agentSetup Text.assigns
    rewrite [lines, Text.join_toList]
    simp only [List.map_cons, List.map_nil]
    repeat rewrite [String.toList_ofList]
    decide +kernel
  have codeIs : Shipped.phpAgentCode =
      ["    /**"] ++ ((Shipped.phpAgentCode.drop 1).take 8 ++
      ((Shipped.phpAgentCode.drop 9).take 5 ++ Shipped.phpAgentCode.drop 14)) :=
    rfl
  have remarksNotNil : (Shipped.phpAgentCode.drop 1).take 8 ≠ [] :=
    List.cons_ne_nil _ _
  have headNotNil : (Shipped.phpAgentCode.drop 9).take 5 ≠ [] :=
    List.cons_ne_nil _ _
  have restNotNil : Shipped.phpAgentCode.drop 14 ≠ [] := List.cons_ne_nil _ _
  have firstIs : (Text.ofLines ["    /**"]).toList =
      "    ".toList ++ '/' :: "**".toList := by
    decide
  have noOpening : '\x7b' ∉ (Text.ofLines
      ((Shipped.phpAgentCode.drop 1).take 8)).toList := by
    have others :=
      @forall_mem_ofLines _ (fun character => character ≠ '\x7b') (by decide)
      fun line isLine character inLine isBrace =>
        brace_not_mem_remarks line isLine (isBrace ▸ inLine)
    exact fun member => others _ member rfl
  rw [codeIs,
    ofLines_append (List.cons_ne_nil _ _)
      (List.append_ne_nil_of_left_ne_nil remarksNotNil _),
    ofLines_append remarksNotNil
      (List.append_ne_nil_of_left_ne_nil headNotNil _),
    ofLines_append headNotNil restNotNil, headIs, firstIs]
  generalize (Text.ofLines ((Shipped.phpAgentCode.drop 1).take 8)).toList =
    remarks at noOpening ⊢
  generalize (Text.ofLines (Shipped.phpAgentCode.drop 14)).toList = rest
  refine ⟨"**".toList ++ '\n' :: remarks, '\n' :: rest, ?_, ?_⟩
  · simp only [List.mem_append, List.mem_cons, not_or]
    exact ⟨by decide, by decide, noOpening⟩
  · -- The texts are kept closed: only their order matters here.
    have regroup :
        ∀ indent stars remarks declared name lead prompt rest : List Char,
        indent ++ '/' :: stars ++ '\n' :: (remarks ++ '\n' ::
          (declared ++ (name ++ (lead ++ (prompt ++ [';']))) ++ '\n' :: rest)) =
        indent ++ ('/' :: (stars ++ '\n' :: remarks) ++
          ('\n' :: declared ++ (name ++
          (lead ++ (prompt ++ ';' :: '\n' :: rest))))) := by
      simp
    rw [regroup, agentMethod, declares]

/--
The template for agents has places for the name and the prompt, and no others
before.
-/
theorem exists_agentTemplate_eq :
    ∃ remarks rest, '\x7b' ∉ '/' :: remarks ∧
      agentTemplate.toList =
        agentMethod ('/' :: remarks) (tag "method_name".toList)
          (tag "prompt".toList) rest := by
  obtain ⟨remarks, rest, noOpening, codeIs⟩ := exists_agentCode_eq
  generalize tag "method_name".toList = name at codeIs ⊢
  generalize tag "prompt".toList = prompt at codeIs ⊢
  have regroup : ∀ rest, agentMethod ('/' :: remarks) name prompt rest =
      '/' :: (remarks ++ (declares ++ (name ++ (agentLead ++ prompt)))) ++
      ';' :: rest := by
    simp [agentMethod]
  refine ⟨remarks, Text.dropEnd Text.isBlank rest, by simp [noOpening], ?_⟩
  rw [agentTemplate, Text.trim, String.toList_ofList, codeIs, regroup, regroup,
    Text.trimmed_of_ends (by decide) (by decide) (by decide)]

/-- A tree where no template is kept for agents in PHP alone. -/
def NoOwnAgent (tree : FileTree) : Prop :=
  tree.has ⟨"", ["templates", "nodes", "php", "aiAgent.xml"]⟩ = .ok false

end Template

namespace Method

variable {node parameters : Value} {prompt : String}

/-- A prompt that is a text stands in quotes, as it is. -/
theorem promptCode_eq_literal
    (notEmpty : prompt ≠ "")
    (other : Value) :
    inQuotesOrEmpty (promptValue ((Value.text prompt).orElse other)) =
      Expression.literal prompt.toList := by
  have isTruthy : (Value.text prompt).isTruthy = true := by
    simpa [Value.isTruthy] using notEmpty
  have orElseIs : (Value.text prompt).orElse other = .text prompt := by
    rw [Value.orElse, if_pos isTruthy]
  have valueIs : promptValue (.text prompt) = .text prompt := rfl
  have display : (Value.text prompt).display = prompt := rfl
  rw [orElseIs, valueIs, inQuotesOrEmpty, if_pos isTruthy, inQuotes, display,
    Expression.literal]
  apply String.toList_injective
  simp

theorem commonSlots_prompt
    {slots : List Slot}
    (made : commonSlots node = .ok slots)
    (areParameters : node.get "parameters" (.object []) = .ok parameters)
    (isPrompt : parameters.get "prompt" (.text "") = .ok (.text prompt))
    (notEmpty : prompt ≠ "") :
    ∃ front back, slots = front ++
    ⟨"prompt", Expression.literal prompt.toList⟩ :: back ∧
      front.map Slot.name = commonNames.take 5 := by
  obtain ⟨_, _, _, _, _, _, _, _, foundAre, _, _, _, rfl⟩ :=
    commonSlots_eq_ok made
  obtain rfl := Except.ok.inj (areParameters.symm.trans foundAre)
  have promptIs : given parameters "prompt" "" = .text prompt :=
    (Value.get_eq_ok.mp isPrompt).2
  rw [promptIs, promptCode_eq_literal notEmpty]
  exact ⟨[_, _, _, _, _], _, rfl, rfl⟩

theorem slots_prompt
    {type : String}
    {slots : List Slot}
    (made : Method.slots node type = .ok slots)
    (areParameters : node.get "parameters" (.object []) = .ok parameters)
    (isPrompt : parameters.get "prompt" (.text "") = .ok (.text prompt))
    (notEmpty : prompt ≠ "") :
    ∃ name front back, Naming.methodName node = .ok name ∧
      slots = ⟨"method_name", name⟩ :: front ++
        ⟨"prompt", Expression.literal prompt.toList⟩ :: back ∧
      front.map Slot.name = "generated_code" :: commonNames.take 5 := by
  simp only [Method.slots, bind_eq_ok, pure_eq_ok] at made
  obtain ⟨name, named, code, _, common, commonMade, rfl⟩ := made
  obtain ⟨front, back, rfl, frontNames⟩ :=
    commonSlots_prompt commonMade areParameters isPrompt notEmpty
  refine ⟨name, ⟨"generated_code", code⟩ :: front,
    back ++ [⟨"generated_code", code⟩], named, by simp, ?_⟩
  rw [List.map_cons, frontNames]

/-- The method for an agent assigns its prompt in quotes, as it is. -/
theorem ofTemplate_agent
    {type code : String}
    (made : ofTemplate agentTemplate node type = .ok code)
    (areParameters : node.get "parameters" (.object []) = .ok parameters)
    (isPrompt : parameters.get "prompt" (.text "") = .ok (.text prompt))
    (notEmpty : prompt ≠ "")
    (free : TagFree (Expression.literal prompt.toList).toList) :
    ∃ name remarks rest, Naming.methodName node = .ok name ∧ '\x7b' ∉ remarks ∧
      code.toList =
        agentMethod remarks name.toList
          (Expression.literal prompt.toList).toList rest := by
  obtain ⟨slots, slotsMade, made⟩ := bind_eq_ok.mp made
  obtain rfl := pure_eq_ok.mp made
  obtain ⟨name, front, back, named, slotsAre, frontNames⟩ :=
    slots_prompt slotsMade areParameters isPrompt notEmpty
  have isNamed := named_slots slotsMade
  have nameFree : TagFree name.toList :=
    .of_not_mem (Naming.brace_not_mem_methodName named)
  have nameFilled : filled slots (tag "method_name".toList) = name.toList := by
    have split : slots = [] ++ ⟨"method_name", name⟩ ::
        (front ++ ⟨"prompt", Expression.literal prompt.toList⟩ :: back) :=
      slotsAre
    rw [split] at isNamed ⊢
    exact filled_tag_of_split isNamed (by simp) nameFree
  have promptFilled : filled slots (tag "prompt".toList) =
      (Expression.literal prompt.toList).toList := by
    rw [slotsAre] at isNamed ⊢
    have isFirst : "prompt" ∉
        "method_name" :: "generated_code" :: commonNames.take 5 := by decide
    refine filled_tag_of_split isNamed (fun other member same => isFirst ?_)
      free
    have known := List.mem_map_of_mem (f := Slot.name) member
    rwa [List.map_cons, frontNames, same] at known
  obtain ⟨remarks, rest, noOpening, templateIs⟩ := exists_agentTemplate_eq
  refine ⟨name, '/' :: remarks, filled slots rest, named, noOpening, ?_⟩
  rw [fill_toList, templateIs, filled_agentMethod isNamed noOpening, nameFilled,
    promptFilled]

/-- The method for an agent is made from the template for agents. -/
theorem start_ofNode_agent
    {host : Host}
    {written : String}
    (equipped : Equipped host.files)
    (noOwn : NoOwnAgent host.files)
    (typed : node.get "type" (.text "") = .ok (.text written))
    (isAgent : normalizedType written = "aiAgent") :
    ((ofNode .standard Language.php.code node).start host).1 =
      ofTemplate agentTemplate node "aiAgent" := by
  exact start_ofNode_eq equipped (fun _ => noOwn) typed isAgent
    (by simp [typedCodes])

end Method

namespace Class

theorem methods_infix_classCode
    (language : Language) :
    tag "steps_methods".toList <:+: (classTemplate language).toList := by
  have member : "    \x7b\x7bsteps_methods\x7d\x7d" ∈ classCode language := by
    cases language
    all_goals
      repeat first
        | exact List.mem_cons_self
        | apply List.mem_cons_of_mem
  exact tag_infix_trim member (by decide)

namespace Parts

/-- The placeholders of a class that are filled after the methods. -/
def laterSlots (parts : Parts) (language : Language) : List Slot :=
  ⟨"steps_calls", Text.join "\n            " parts.calls⟩ ::
    ⟨"constructor", parts.constructor⟩ :: parts.closingSlots language

theorem named_laterSlots
    (parts : Parts)
    (language : Language) :
    Named (parts.laterSlots language) := by
  obtain ⟨_, namedOne⟩ := List.forall_mem_cons.mp (parts.named_slots language)
  obtain ⟨_, namedTwo⟩ := List.forall_mem_cons.mp namedOne
  exact (List.forall_mem_cons.mp namedTwo).2

/--
What is filled in for a placeholder stands in the class, with what is filled
after it.
-/
theorem content_infix_fill
    {parts : Parts}
    {language : Language}
    {front later : List Slot}
    {slot : Slot}
    (slotsAre : parts.slots language = front ++ slot :: later)
    (isFirst : slot.name ∉ front.map Slot.name)
    (found : tag slot.name.toList <:+: (classTemplate language).toList) :
    filled later slot.content.toList <:+:
      (fill (classTemplate language) (parts.slots language)).toList := by
  have spaced : Spaced (classNames language) (classTemplate language).toList :=
    (fineLines_classCode language).spaced
  have isNamed := parts.named_slots language
  have isName : IsTagName slot.name.toList := isNamed slot (by simp [slotsAre])
  have inClass :=
    spaced.contentFor_infix_atOnceAfter (settled_named isNamed) isName found
  rw [fill_eq_fillAtOnce spaced isNamed, fillAtOnce, String.toList_ofList]
  rwa [slotsAre, contentFor_settled_of_split isFirst, ← slotsAre] at inClass

/--
The code of a method stands in the class, with what is filled after the
methods filled.
-/
theorem code_infix_fill
    {code : String}
    (parts : Parts)
    (language : Language)
    (member : code ∈ parts.codes) :
    filled (parts.laterSlots language) code.toList <:+:
      (fill (classTemplate language) (parts.slots language)).toList := by
  have methods := @content_infix_fill parts language
    [⟨"class_name", parts.className⟩, ⟨"workflow_name", parts.workflowName⟩]
    (parts.laterSlots language)
      ⟨"steps_methods", Text.join "\n\n    " parts.codes⟩ rfl (by simp)
    (methods_infix_classCode language)
  rw [Text.join_toList,
    filled_intercalate (parts.named_laterSlots language) (by decide)
      (by decide)] at methods
  exact (infix_intercalate (List.mem_map_of_mem
    (List.mem_map_of_mem member))).trans methods

end Parts

namespace Generator

variable {host after : Host} {workflow nodes node parameters : Value}
  {inOrder : List Value} {written prompt code : String} {names : List String}

/-- A class has the code of each of its nodes, unless it is empty. -/
theorem exists_code_of_mem
    {language : Language}
    {output : Output}
    (equipped : Equipped host.files)
    (made : ((standard language output).generate workflow).start host =
      (.ok (some code), after))
    (areNodes : workflow.get "nodes" (.list []) = .ok nodes)
    (areInOrder : ExecutionOrder.ordered nodes = .ok inOrder)
    (member : node ∈ inOrder) :
    ∃ parts : Parts, ∃ method,
    code = fill (classTemplate language) (parts.slots language) ∧
      ((Method.ofNode .standard language.code node).start host).1 = .ok method ∧
      (method ≠ "" → method ∈ parts.codes) := by
  obtain ⟨parts, madeOf, codeIs⟩ := generate_eq_ok equipped made
  obtain ⟨others, otherOrder, mapping, areOthers, _, areOtherOrder, codesAre,
    _⟩ := madeOf.methods
  obtain rfl := Except.ok.inj (areNodes.symm.trans areOthers)
  obtain rfl := Except.ok.inj (areInOrder.symm.trans areOtherOrder)
  rw [← mapping.ofNodes] at member
  obtain ⟨entry, isEntry, rfl⟩ := List.mem_map.mp member
  refine ⟨parts, entry.2, codeIs, mapping.coded entry isEntry,
    fun notEmpty => ?_⟩
  rw [codesAre]
  exact List.mem_map_of_mem (List.mem_filter.mpr ⟨isEntry, by simp [notEmpty]⟩)

/--
The class has the method for an agent, with its prompt in quotes as it is.
-/
theorem exists_agentMethod_infix
    {output : Output}
    (equipped : Equipped host.files)
    (noOwn : NoOwnAgent host.files)
    (made : ((standard .php output).generate workflow).start host =
      (.ok (some code), after))
    (areNodes : workflow.get "nodes" (.list []) = .ok nodes)
    (areInOrder : ExecutionOrder.ordered nodes = .ok inOrder)
    (member : node ∈ inOrder)
    (typed : node.get "type" (.text "") = .ok (.text written))
    (isAgent : Method.normalizedType written = "aiAgent")
    (areParameters : node.get "parameters" (.object []) = .ok parameters)
    (isPrompt : parameters.get "prompt" (.text "") = .ok (.text prompt))
    (notEmpty : prompt ≠ "")
    (free : TagFree (Expression.literal prompt.toList).toList) :
    ∃ name remarks rest, Naming.methodName node = .ok name ∧
      agentMethod remarks name.toList (Expression.literal prompt.toList).toList
        rest <:+:
        code.toList := by
  obtain ⟨parts, method, rfl, coded, isKept⟩ :=
    exists_code_of_mem equipped made areNodes areInOrder member
  rw [Method.start_ofNode_agent equipped noOwn typed isAgent] at coded
  obtain ⟨name, remarks, rest, named, noOpening, methodIs⟩ :=
    Method.ofTemplate_agent coded areParameters isPrompt notEmpty free
  have methodNotEmpty : method ≠ "" := by
    rintro rfl
    simp [agentMethod, declares] at methodIs
  have nameFree : TagFree name.toList :=
    .of_not_mem (Naming.brace_not_mem_methodName named)
  have found := parts.code_infix_fill .php (isKept methodNotEmpty)
  have namedLater := parts.named_laterSlots .php
  rw [methodIs, filled_agentMethod namedLater noOpening,
    filled_eq_self_of_tagFree namedLater nameFree,
    filled_eq_self_of_tagFree namedLater free] at found
  exact ⟨name, remarks, _, named, found⟩

/--
The prompt of an agent stands for an access to the parameters of the class if
it is an expression along a path.  The class does not use it so: the method
for the agent assigns the text of the expression, in quotes.
-/
theorem generate_assigns_written_prompt
    {output : Output}
    (equipped : Equipped host.files)
    (noOwn : NoOwnAgent host.files)
    (made : ((standard .php output).generate workflow).start host =
      (.ok (some code), after))
    (areNodes : workflow.get "nodes" (.list []) = .ok nodes)
    (areInOrder : ExecutionOrder.ordered nodes = .ok inOrder)
    (member : node ∈ inOrder)
    (typed : node.get "type" (.text "") = .ok (.text written))
    (isAgent : Method.normalizedType written = "aiAgent")
    (areParameters : node.get "parameters" (.object []) = .ok parameters)
    (isPrompt : parameters.get "prompt" (.text "") = .ok (.text prompt))
    (supported : Expression.Supported names prompt) :
    (∀ scope, (Expression.renderText scope prompt).1 =
      .ok (Expression.accessCode names)) ∧
    ∃ name body, Naming.methodName node = .ok name ∧
      ("private function " ++ name ++ "()").toList ++ body <:+: code.toList ∧
      Text.assigned? "prompt".toList body =
        some (Expression.literal prompt.toList).toList ∧
      Text.assigned? "prompt".toList body ≠
        some (Expression.accessCode names).toList := by
  obtain ⟨noEnd, free⟩ := supported.plain
  have literalIs : (Expression.literal prompt.toList).toList =
      '\x22' :: prompt.toList ++ ['\x22'] :=
    String.toList_ofList
  rw [← literalIs] at free
  obtain ⟨name, remarks, rest, named, found⟩ :=
    exists_agentMethod_infix equipped noOwn made areNodes
    areInOrder member typed isAgent areParameters isPrompt supported.ne_empty
      free
  have assigned :=
    @Text.assigned?_append agentSetup (Expression.literal prompt.toList).toList
    (by decide) (by rw [literalIs]; simp [noEnd]) "prompt".toList rest
  refine ⟨supported.renderText, name, _, named, ?_, assigned, ?_⟩
  · refine List.IsInfix.trans ?_ found
    refine ⟨remarks ++ '\n' :: "    ".toList, [], ?_⟩
    simp only [agentMethod, declares, agentLead, String.toList_append,
      List.append_assoc, List.cons_append, List.append_nil]
  · have accessIs :
        (Expression.accessCode names).toList = '$' :: ("this->params".toList ++
        (String.join (names.map fun name => "['" ++ name ++ "']")).toList) := by
      rw [Expression.accessCode, String.toList_append]
      rfl
    rw [assigned, literalIs, accessIs]
    simp

/-- An agent that is asked what the call says. -/
def asker : Value :=
  .object [("id", .text "a"), ("name", .text "Perguntar"),
    ("type", .text "@n8n/n8n-nodes-langchain.agent"),
    ("parameters", .object [("prompt",
      .text "=\x7b\x7b $json.body.user.name \x7d\x7d")])]

/-- A workflow of that agent alone. -/
def question : Value :=
  .object [("name", .text "Flow"), ("nodes", .list [asker])]

theorem supported_question :
    Expression.Supported ["user", "name"]
      "=\x7b\x7b $json.body.user.name \x7d\x7d" where
  notNil := by decide
  isName := by decide
  written :=
    ⟨"body".toList, by decide, [' '], [' '], by decide, by decide, by decide⟩

theorem noOwnAgent_freshHost : NoOwnAgent freshHost.files := by
  unfold NoOwnAgent
  decide +kernel

theorem ordered_question :
  ExecutionOrder.ordered (.list [asker]) = .ok [asker] := by
  cbv

theorem exists_generate_of_coded
    {host : Host}
    {language : Language}
    (equipped : Equipped host.files)
    (output : Output)
    (coded : ∃ code,
      ((Method.ofNode .standard language.code asker).start host).1 = .ok code) :
    ∃ code after, ((standard language output).generate question).start host =
      (.ok (some code), after) := by
  have areDeclared : Parameters.ofWorkflow question = .ok ["user"] := by
    decide +kernel
  have areUsed : Parameters.usedBy question = .ok ["user"] := by decide +kernel
  have areNames : Parameters.ofClass host.setOrder question = .ok ["user"] :=
    Parameters.ofClass_eq_ok_iff.mpr ⟨_, _, areDeclared, areUsed, by simp⟩
  have constructed : ∃ code,
      Class.constructor language.code (parameterFields ["user"]) =
        .ok code := by
    cases language <;> exact exists_eq_ok_of_isOk (by decide +kernel)
  have imported : ∃ code, Class.imports language.code question = .ok code := by
    cases language <;> exact exists_eq_ok_of_isOk (by decide +kernel)
  have exists_parts :
      ∃ parts, IsMadeOf (standard language output) host question parts := by
    refine exists_isMadeOf (exists_eq_ok_of_isOk (by decide +kernel))
      ⟨"Flow", rfl⟩ rfl rfl ordered_question ?_ ?_ areNames constructed imported
    · simp only [List.forall_mem_cons]
      exact ⟨coded, by simp⟩
    · simp only [List.forall_mem_cons]
      exact ⟨exists_eq_ok_of_isOk (by decide +kernel), by simp⟩
  obtain ⟨parts, madeOf⟩ := exists_parts
  exact ⟨_, generate_of_isMadeOf equipped madeOf⟩

theorem exists_generate_question :
    ∃ code after, ((freshGenerator .php).generate question).start freshHost =
      (.ok (some code), after) := by
  obtain ⟨slots, made⟩ := exists_eq_ok_of_isOk
    (show (Method.slots asker "aiAgent").isOk = true by decide +kernel)
  refine exists_generate_of_coded equipped_freshHost _ ?_
  rw [Method.start_ofNode_agent equipped_freshHost noOwnAgent_freshHost rfl
    (by decide +kernel), Method.ofTemplate, made]
  exact ⟨_, rfl⟩

/-- The class for the question asks for the text of the expression. -/
theorem generate_question_assigns_expression :
    Equipped freshHost.files ∧ NoOwnAgent freshHost.files ∧
    Method.normalizedType "@n8n/n8n-nodes-langchain.agent" = "aiAgent" ∧
    Expression.Supported ["user", "name"]
      "=\x7b\x7b $json.body.user.name \x7d\x7d" ∧
    ∃ code, (∃ after, ((freshGenerator .php).generate question).start
        freshHost = (.ok (some code), after)) ∧
      (∀ scope, (Expression.renderText scope
        "=\x7b\x7b $json.body.user.name \x7d\x7d").1 =
        .ok (Expression.accessCode ["user", "name"])) ∧
      ∃ name body, Naming.methodName asker = .ok name ∧
        ("private function " ++ name ++ "()").toList ++ body <:+: code.toList ∧
        Text.assigned? "prompt".toList body = some (Expression.literal
          "=\x7b\x7b $json.body.user.name \x7d\x7d".toList).toList ∧
        Text.assigned? "prompt".toList body ≠
          some (Expression.accessCode ["user", "name"]).toList := by
  have isAgent :
      Method.normalizedType "@n8n/n8n-nodes-langchain.agent" = "aiAgent" := by
    decide +kernel
  obtain ⟨code, after, made⟩ := exists_generate_question
  exact ⟨equipped_freshHost, noOwnAgent_freshHost, isAgent, supported_question,
    code, ⟨after, made⟩,
    generate_assigns_written_prompt equipped_freshHost noOwnAgent_freshHost made
      rfl
      ordered_question List.mem_cons_self rfl isAgent rfl rfl
        supported_question⟩

end Generator

end Class

end Flowgen
