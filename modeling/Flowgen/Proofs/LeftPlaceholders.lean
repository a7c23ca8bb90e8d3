import Flowgen.Proofs.AgentPrompts
import Flowgen.Proofs.ConstructorParameters

namespace Flowgen

/-!
# The placeholders that are left in a class

A workflow without double braces brings no placeholders into its class, and
those of the class template are all filled.  What is left comes from method
templates: the branches of a choice are never filled in, and the directory of
credentials only is in JavaScript.
-/

open Template Session

namespace Value

/-- No string in a value has two opening braces in a row. -/
def Unmarked (value : Value) : Prop :=
  ∀ text ∈ value.strings, ¬ ['\x7b', '\x7b'] <:+: text.toList

instance (value : Value) : Decidable value.Unmarked :=
  inferInstanceAs (Decidable
    (∀ text ∈ value.strings, ¬ ['\x7b', '\x7b'] <:+: text.toList))

namespace Unmarked

variable {value result item : Value} {items : List Value} {name : String}

theorem clean
    (unmarked : value.Unmarked) :
    value.Clean :=
  fun text inValue => .of_no_opening (unmarked text inValue)

/--
What an unmarked value is asked for is unmarked, if the fallback has no
strings.
-/
theorem get
    {fallback : Value}
    (unmarked : value.Unmarked)
    (got : value.get name fallback = .ok result)
    (noStrings : fallback.strings = []) :
    result.Unmarked := by
  intro text inResult
  have inValue := strings_subset_of_get got inResult
  rw [noStrings, List.nil_append] at inValue
  exact unmarked text inValue

theorem of_mem
    (unmarked : (Value.list items).Unmarked)
    (isItem : item ∈ items) :
    item.Unmarked :=
  fun text inItem => unmarked text (mem_strings_list.mpr ⟨item, isItem, inItem⟩)

end Unmarked

mutual

theorem texts_subset_strings :
    ∀ value : Value, value.texts ⊆ value.strings
  | .text _ => List.Subset.refl _
  | .list items => itemTexts_subset_itemStrings items
  | .object fields => fieldTexts_subset_fieldStrings fields
  | .real _ => List.nil_subset _
  | .int _ => List.nil_subset _
  | .bool _ => List.nil_subset _
  | .null => List.nil_subset _

theorem itemTexts_subset_itemStrings :
    ∀ items : List Value, itemTexts items ⊆ itemStrings items
  | [] => List.nil_subset _
  | item :: items => List.append_subset.mpr
      ⟨List.subset_append_of_subset_left _ (texts_subset_strings item),
       List.subset_append_of_subset_right _
         (itemTexts_subset_itemStrings items)⟩

theorem fieldTexts_subset_fieldStrings :
    ∀ fields : Fields, fieldTexts fields ⊆ fieldStrings fields
  | [] => List.nil_subset _
  | (_, value) :: fields => List.subset_cons_of_subset _ (List.append_subset.mpr
      ⟨List.subset_append_of_subset_left _ (texts_subset_strings value),
       List.subset_append_of_subset_right _
         (fieldTexts_subset_fieldStrings fields)⟩)

end

end Value

namespace Parameters

variable {node entry : Value} {nodes : List Value}

/-- No text in the parameters of an unmarked node has an expression in it. -/
theorem no_opening_of_holdsAt
    {fields : Fields}
    {keys : List String}
    {content : String}
    (unmarked : node.Unmarked)
    (has : HasParameters node fields)
    (holds : HoldsAt fields keys content) :
    ¬ Expression.opening <:+: content.toList := by
  intro found
  have inParameters := Value.texts_subset_strings _ holds.mem_texts
  exact unmarked.get has rfl content inParameters
    (List.IsInfix.trans (by decide) found)

/--
The parameters of the class for an unmarked workflow are keys, and have no
tags.
-/
theorem tagFree_of_mem_ofClass
    {workflow value : Value}
    {names : List String}
    (unmarked : workflow.Unmarked)
    (areNodes : workflow.get "nodes" (.list []) = .ok value)
    (isTruthy : value.isTruthy = true)
    {order : SetOrder}
    (made : ofClass order workflow = .ok names) :
    ∀ name ∈ names, TagFree name.toList := by
  obtain ⟨nodes, entry, rfl, isEntry, mem_names⟩ :=
    mem_ofClass areNodes isTruthy made
  have nodesUnmarked : (Value.list nodes).Unmarked := unmarked.get areNodes rfl
  have entryUnmarked := nodesUnmarked.of_mem isEntry.mem
  intro name isName
  rcases (mem_names name).mp isName with isKey | isNested | isUsed
  · obtain ⟨_, fields, has, source, _, inner, isInner, inKeys⟩ := isKey
    obtain ⟨field, isField, rfl⟩ := List.mem_map.mp inKeys
    have inInner : field.1 ∈ (Value.object inner).strings :=
      Value.mem_strings_object.mpr ⟨field, isField, .inl rfl⟩
    have found : (Value.object fields).field? source = some (.object inner) :=
      isInner
    have inFields := Value.strings_subset_of_field found inInner
    exact .of_no_opening (entryUnmarked.get has rfl _ inFields)
  · obtain ⟨fields, has, keys, content, holds, first, refers, _⟩ := isNested
    exact absurd refers.1 (no_opening_of_holdsAt entryUnmarked has holds)
  · obtain ⟨node, isNode, fields, has, keys, content, holds, refers⟩ := isUsed
    exact absurd refers.1 (no_opening_of_holdsAt (nodesUnmarked.of_mem isNode)
      has holds)

end Parameters

namespace Method

variable {host : Host} {language : Language} {node : Value} {code : String}
  {name : List Char} {entry : List String × List (List Char)}

open Shipped in
theorem tag_infix_of_mem_leftovers :
    ∀ entry ∈ leftovers, ∀ name ∈ entry.2,
      tag name <:+: (Text.trim (Text.ofLines entry.1)).toList := by
  have inNone : ∀ code : List String, ∀ name ∈ ([] : List (List Char)),
      tag name <:+: (Text.trim (Text.ofLines code)).toList := by
    simp
  have inChoice : ∀ code ∈ [phpIfCode, pythonIfCode, javascriptIfCode],
      ∀ name ∈ branchNames,
      tag name <:+: (Text.trim (Text.ofLines code)).toList := by
    have rows : ∀ code ∈ [phpIfCode, pythonIfCode, javascriptIfCode],
        ∀ name ∈ branchNames,
        ∃ row ∈ code.map String.toList, tag name <:+: row := by
      simp only [branchNames, phpIfCode, pythonIfCode, javascriptIfCode,
        List.forall_mem_cons, List.map]
      repeat rewrite [String.toList_ofList]
      decide +kernel
    intro code isChoice name isBranch
    obtain ⟨_, isRow, inRow⟩ := rows code isChoice name isBranch
    obtain ⟨line, isLine, rfl⟩ := List.mem_map.mp isRow
    exact tag_infix_trim isLine inRow
  have inAgent : tag "credentials_path_base".toList <:+:
      (Text.trim (Text.ofLines javascriptAgentCode)).toList := by
    have isLine :
        "                const \x7b OpenAICredentials \x7d = require('\x7b\x7bcredentials_path_base\x7d\x7d/OpenAICredentials.js');"
          ∈ javascriptAgentCode := by
      repeat first
        | exact List.mem_cons_self
        | apply List.mem_cons_of_mem
    refine tag_infix_trim isLine ?_
    repeat rewrite [String.toList_ofList]
    decide +kernel
  simp only [leftovers, List.forall_mem_cons]
  exact ⟨inNone _, inNone _, inChoice _ (by simp), inNone _, inNone _,
    inNone _, inNone _, inChoice _ (by simp), inNone _, inNone _,
    inNone _, inNone _, inChoice _ (by simp), inNone _, ⟨inAgent, inNone _⟩,
    by simp⟩

theorem mem_leftover_iff
    (known : entry ∈ leftovers)
    (isName : IsTagName name) :
    name ∈ entry.2 ↔ tag name <:+: (Text.trim (Text.ofLines entry.1)).toList ∧
      ∀ other ∈ slotNames, other.toList ≠ name := by
  constructor
  · intro isLeft
    have apart : ∀ other ∈ slotNames, other.toList ∉ leftoverNames := by decide
    refine ⟨tag_infix_of_mem_leftovers entry known name isLeft, ?_⟩
    rintro other isSlot rfl
    exact apart other isSlot (leftovers_names entry known isLeft)
  · rintro ⟨inTemplate, absent⟩
    have inNames :=
      (fineLines_leftovers entry known).spaced.tagsIn name isName inTemplate
    rcases List.mem_append.mp inNames with isMethod | isLeft
    · obtain ⟨other, isSlot, otherIs⟩ := methodNames_filled name isMethod
      exact absurd otherIs (absent other isSlot)
    · exact isLeft

/-- The placeholders of method templates that are filled with the class. -/
def directorySlots : Language → List Slot
  | .javascript => [⟨"credentials_path_base", "../credentials"⟩]
  | .php | .python => []

theorem finishedCode_toList
    (language : Language)
    (code : String) :
    (Class.Parts.finishedCode language code).toList =
      filled (directorySlots language) code.toList := by
  cases language with
  | php =>
      rfl
  | python =>
      rfl
  | javascript =>
      rw [Class.Parts.finishedCode, Text.replace_toList, placeholder_toList]
      rfl

/--
A node whose method has a placeholder in it that is not filled with the class
either.
-/
def LeavesOver
    (host : Host)
    (language : Language)
    (node : Value)
    (name : List Char) : Prop :=
  ∃ entry ∈ leftovers, HasTemplate host language node entry.1 ∧ name ∈ entry.2 ∧
    ∀ slot ∈ directorySlots language, slot.name.toList ≠ name

theorem isTagName_of_mem_leftover
    (known : entry ∈ leftovers)
    (isLeft : name ∈ entry.2) :
    IsTagName name := by
  have named : ∀ other ∈ leftoverNames, IsTagName other := by decide
  exact named name (leftovers_names entry known isLeft)

theorem LeavesOver.isTagName
    (leaves : LeavesOver host language node name) :
    IsTagName name := by
  obtain ⟨entry, known, _, isLeft, _⟩ := leaves
  exact isTagName_of_mem_leftover known isLeft

/--
A node leaves over what its template does, but for what is filled with the
class.
-/
theorem leavesOver_iff
    (known : entry ∈ leftovers)
    (found : HasTemplate host language node entry.1) :
    LeavesOver host language node name ↔
      name ∈ entry.2 ∧ ∀ slot ∈ directorySlots language,
      slot.name.toList ≠ name := by
  constructor
  · rintro ⟨other, isOther, otherFound, isLeft, stays⟩
    have isName := isTagName_of_mem_leftover isOther isLeft
    rw [mem_leftover_iff isOther isName, otherFound.unique found,
      ← mem_leftover_iff known isName] at isLeft
    exact ⟨isLeft, stays⟩
  · rintro ⟨isLeft, stays⟩
    exact ⟨entry, known, found, isLeft, stays⟩

/--
The tags in the method of a clean node, as it stands in a class, are those it
leaves over.
-/
theorem tag_infix_finishedCode_iff
    (equipped : Equipped host.files)
    (clean : node.Clean)
    (made : ((ofNode .standard language.code node).start host).1 = .ok code)
    (isName : IsTagName name) :
    tag name <:+: (Class.Parts.finishedCode language code).toList ↔
      LeavesOver host language node name := by
  have namedDirectory : Named (directorySlots language) := by
    unfold Named
    cases language <;> decide
  have directoryFree :
      ∀ slot ∈ directorySlots language, TagFree slot.content.toList := by
    cases language <;> decide
  rw [finishedCode_toList]
  obtain ⟨lines, type, slots, found, noBrace, slotsMade, rfl⟩ | ⟨lacks, made⟩ :=
    ofNode_cases equipped made
  · have known := found.known
    rw [← leftovers_codes] at known
    obtain ⟨entry, isEntry, rfl⟩ := List.mem_map.mp known
    have named : Named (slots ++ directorySlots language) :=
      List.forall_mem_append.mpr ⟨named_slots slotsMade, namedDirectory⟩
    have contentsFree := List.forall_mem_append.mpr
      ⟨tagFree_slots clean (.of_not_mem noBrace) slotsMade, directoryFree⟩
    have absent_iff : (∀ slot ∈ slots, slot.name.toList ≠ name) ↔
        ∀ other ∈ slotNames, other.toList ≠ name := by
      rw [← slots_names slotsMade, List.forall_mem_map]
    have spaced := (fineLines_leftovers entry isEntry).spaced
    rw [fill_toList, ← filled_append,
      spaced.tag_infix_filled_iff named contentsFree isName,
      List.forall_mem_append, ← and_assoc, absent_iff,
      ← mem_leftover_iff isEntry isName,
      leavesOver_iff isEntry found]
  · have free := tagFree_defaultMethod clean made
    rw [filled_eq_self_of_tagFree namedDirectory free]
    constructor
    · exact fun inCode => absurd (free name isName inCode) List.not_mem_nil
    · rintro ⟨entry, _, found, _⟩
      exact absurd lacks found.not_lacksTemplate

/-- A node of a type, as it is written in the names of templates. -/
def HasType (node : Value) (type : String) : Prop :=
  ∃ written, node.get "type" (.text "") = .ok (.text written) ∧
    normalizedType written = type

theorem hasType_iff
    {written type : String}
    (typed : node.get "type" (.text "") = .ok (.text written)) :
    HasType node type ↔ normalizedType written = type := by
  constructor
  · rintro ⟨other, otherTyped, typeIs⟩
    obtain rfl := Value.text.inj (Except.ok.inj (typed.symm.trans otherTyped))
    exact typeIs
  · exact fun typeIs => ⟨written, typed, typeIs⟩

/--
The templates of a language for plain types leave something over in choices
only.
-/
theorem leftover_of_mem_typedCodes
    (language : Language) :
    ∀ typed ∈ typedCodes language, ∃ names, (typed.2, names) ∈ leftovers ∧
      ((∃ name ∈ names, ∀ slot ∈ directorySlots language,
        slot.name.toList ≠ name) ↔ typed.1 = "if") := by
  cases language with
  | php =>
      simp only [typedCodes, List.forall_mem_cons]
      refine ⟨⟨[], ?_⟩, ⟨[], ?_⟩, ⟨branchNames, ?_⟩, ⟨[], ?_⟩, ⟨[], ?_⟩,
        by simp⟩
      all_goals exact ⟨by simp [leftovers], by decide⟩
  | python =>
      simp only [typedCodes, List.forall_mem_cons]
      refine ⟨⟨[], ?_⟩, ⟨[], ?_⟩, ⟨branchNames, ?_⟩, ⟨[], ?_⟩, ⟨[], ?_⟩,
        by simp⟩
      all_goals exact ⟨by simp [leftovers], by decide⟩
  | javascript =>
      simp only [typedCodes, List.forall_mem_cons]
      refine ⟨⟨[], ?_⟩, ⟨[], ?_⟩, ⟨branchNames, ?_⟩, ⟨[], ?_⟩,
        ⟨["credentials_path_base".toList], ?_⟩, by simp⟩
      all_goals exact ⟨by simp [leftovers], by decide⟩

/-- A node whose type is not written like a path. -/
def HasPlainType (node : Value) : Prop :=
  ∀ type, HasType node type → '/' ∉ type.toList

/--
Of the nodes with plain types, those leave something over that are choices.
-/
theorem exists_leavesOver_iff
    (equipped : Equipped host.files)
    (plain : HasPlainType node)
    (made : ((ofNode .standard language.code node).start host).1 = .ok code) :
    (∃ name, LeavesOver host language node name) ↔
      HasType node "if" ∧ ¬ LacksTemplate host language node := by
  obtain ⟨lines, _, _, found, _, _, _⟩ | ⟨lacks, _⟩ :=
    ofNode_cases equipped made
  · obtain ⟨written, _, _, typed, _, _⟩ := found.found
    obtain ⟨own, isOwn, ownFound⟩ :=
      found.own equipped typed (plain _ ⟨written, typed, rfl⟩)
    obtain ⟨names, isLeftover, left_iff⟩ :=
      leftover_of_mem_typedCodes language _ isOwn
    simpa only [leavesOver_iff isLeftover ownFound, hasType_iff typed,
      found.not_lacksTemplate, not_false_eq_true, and_true] using left_iff
  · constructor
    · rintro ⟨name, entry, _, found, _⟩
      exact absurd lacks found.not_lacksTemplate
    · exact fun choice => absurd lacks choice.2

end Method

namespace Class

variable {parts : Parts} {language : Language} {name : List Char}

theorem tag_infix_methods_iff
    {codes : List String}
    (isName : IsTagName name) :
    tag name <:+: (Text.join "\n\n    " codes).toList ↔
      ∃ code ∈ codes, tag name <:+: code.toList := by
  rw [Text.join_toList]
  constructor
  · intro found
    have firm : Firm [] "\n\n    ".toList := firm_toList _ (by decide)
    rcases firm.mem_or_exists_part isName found with
      known | ⟨part, isPart, inPart⟩
    · cases known
    · obtain ⟨code, isCode, rfl⟩ := List.mem_map.mp isPart
      exact ⟨code, isCode, inPart⟩
  · rintro ⟨code, isCode, inCode⟩
    exact inCode.trans (infix_intercalate (List.mem_map_of_mem isCode))

/--
A class with a constructor that has no tags has only those of its methods.
-/
theorem Parts.tag_infix_fill_iff
    (clean : parts.Clean language)
    (constructorFree : TagFree parts.constructor.toList)
    (isName : IsTagName name) :
    tag name <:+: (fill (classTemplate language)
      (parts.slots language)).toList ↔
      ∃ code ∈ parts.codes, tag name <:+:
        (finishedCode language code).toList := by
  have spaced : Spaced (classNames language) (classTemplate language).toList :=
    (fineLines_classCode language).spaced
  have nodup := (parts.finished language).nodup_slots language
  have inMethods_iff : tag name <:+:
      (Text.join "\n\n    " (parts.finished language).codes).toList ↔
        ∃ code ∈ parts.codes, tag name <:+:
          (finishedCode language code).toList := by
    simp only [tag_infix_methods_iff isName, finished, List.mem_map,
      exists_exists_and_eq_and]
  rw [fill_eq_fillAtOnce spaced (parts.named_slots language),
    settled_slots clean, fillAtOnce, String.toList_ofList,
    spaced.tag_infix_atOnceAfter_iff
      ((parts.finished language).named_slots language) isName,
    ← inMethods_iff]
  constructor
  · rintro ⟨slotName, isSlotName, inTemplate, inContent⟩
    have known := spaced.tagsIn slotName isSlotName inTemplate
    rw [← (parts.finished language).slots_names language] at known
    obtain ⟨slot, member, rfl⟩ := List.mem_map.mp known
    rw [contentFor_of_mem nodup member] at inContent
    have absent : ∀ {text : List Char}, TagFree text → ¬ tag name <:+: text :=
      fun free found => List.not_mem_nil (free name isName found)
    simp only [slots, List.mem_cons] at member
    rcases member with rfl | rfl | rfl | rfl | rfl | isClosing
    · exact absurd inContent (absent (.of_not_mem clean.className))
    · exact absurd inContent (absent clean.workflowName)
    · exact inContent
    · exact absurd inContent (absent (tagFree_calls clean.calls))
    · exact absurd inContent (absent constructorFree)
    · exact absurd inContent (absent
        (clean.tagFree_closingSlots slot isClosing))
  · intro inMethods
    have member : ⟨"steps_methods",
        Text.join "\n\n    " (parts.finished language).codes⟩ ∈
        (parts.finished language).slots language := by
      simp [slots]
    have content := contentFor_of_mem nodup member
    refine ⟨"steps_methods".toList, by decide, methods_infix_classCode language,
      ?_⟩
    rw [content]
    exact inMethods

namespace Generator

variable {host after : Host} {workflow : Value} {nodes : List Value}
  {code : String} {output : Output}

/-- The methods of clean nodes have the tags that the nodes leave over. -/
theorem Mapping.exists_finishedCode_iff
    (equipped : Equipped host.files)
    (mapping : Mapping (standard language output) host nodes)
    (clean : ∀ node ∈ nodes, node.Clean)
    (isName : IsTagName name) :
    (∃ code ∈ mapping.codes, tag name <:+:
      (Parts.finishedCode language code).toList) ↔
      ∃ node ∈ nodes, Method.LeavesOver host language node name := by
  have entry_iff : ∀ entry ∈ mapping.entries,
      (tag name <:+: (Parts.finishedCode language entry.2).toList ↔
        Method.LeavesOver host language entry.1 name) := by
    intro entry isEntry
    have isNode : entry.1 ∈ nodes := by
      rw [← mapping.ofNodes]
      exact List.mem_map_of_mem isEntry
    exact Method.tag_infix_finishedCode_iff equipped (clean _ isNode)
      (mapping.coded entry isEntry) isName
  constructor
  · rintro ⟨_, isCode, inCode⟩
    obtain ⟨entry, isKept, rfl⟩ := List.mem_map.mp isCode
    have isEntry := List.mem_of_mem_filter isKept
    refine ⟨entry.1, ?_, (entry_iff entry isEntry).mp inCode⟩
    rw [← mapping.ofNodes]
    exact List.mem_map_of_mem isEntry
  · rintro ⟨node, isNode, leaves⟩
    rw [← mapping.ofNodes] at isNode
    obtain ⟨entry, isEntry, rfl⟩ := List.mem_map.mp isNode
    have inCode := (entry_iff entry isEntry).mpr leaves
    have notEmpty : entry.2 ≠ "" := by
      intro isEmpty
      rw [isEmpty] at inCode
      cases language <;> exact absurd (List.infix_nil.mp inCode) (by simp [tag])
    exact ⟨entry.2, List.mem_map_of_mem
      (List.mem_filter.mpr ⟨isEntry, by simpa using notEmpty⟩), inCode⟩

theorem keepsNames_of_tagFree
    {names : List String}
    {order : SetOrder}
    (areNames : Parameters.ofClass order workflow = .ok names)
    (free : ∀ name ∈ names, TagFree name.toList) :
    KeepsNames language workflow := by
  have closingNamed :
      ∀ closing ∈ Parts.closingNames language, IsTagName closing.toList := by
    cases language <;> decide
  refine keepsNames_of_ofClass areNames fun name isName closing isClosing => ?_
  rw [Text.contains, ← Bool.not_eq_true, Text.occurs_iff, placeholder_toList]
  exact fun found =>
    List.not_mem_nil (free name isName _ (closingNamed closing isClosing) found)

/--
The placeholders in the class for a workflow without double braces are those
that its nodes leave over.  If no type of a node is written like a path, then
the class has none if and only if no choice has a template.
-/
theorem generate_leaves_over
    (equipped : Equipped host.files)
    (unmarked : workflow.Unmarked)
    (made : ((standard language output).generate workflow).start host =
      (.ok (some code), after)) :
    ∃ nodes inOrder,
      workflow.get "nodes" (.list []) = .ok nodes ∧
      ExecutionOrder.ordered nodes = .ok inOrder ∧
      (∀ name, IsTagName name →
        (tag name <:+: code.toList ↔
          ∃ node ∈ inOrder, Method.LeavesOver host language node name)) ∧
      ((∀ node ∈ inOrder, Method.HasPlainType node) →
        (TagFree code.toList ↔
          ∀ node ∈ inOrder, Method.HasType node "if" →
            Method.LacksTemplate host language node)) := by
  obtain ⟨parts, madeOf, rfl⟩ := generate_eq_ok equipped made
  obtain ⟨nodes, inOrder, mapping, areNodes, isTruthy, areInOrder, codesAre,
    _⟩ := madeOf.methods
  obtain ⟨names, areNames, _, isConstructor⟩ := madeOf.constructor
  have namesFree :=
    Parameters.tagFree_of_mem_ofClass unmarked areNodes isTruthy areNames
  have clean := clean_of_isMadeOf equipped unmarked.clean
    (keepsNames_of_tagFree areNames namesFree) madeOf
  have nodesClean : nodes.Clean := (unmarked.get areNodes rfl).clean
  have inOrderClean := ExecutionOrder.clean_ordered nodesClean areInOrder
  have left_iff : ∀ name, IsTagName name →
      (tag name <:+: (fill (classTemplate language)
        (parts.slots language)).toList ↔
        ∃ node ∈ inOrder, Method.LeavesOver host language node name) := by
    intro name isName
    rw [parts.tag_infix_fill_iff clean
      (tagsIn_constructor namesFree isConstructor) isName, codesAre]
    exact mapping.exists_finishedCode_iff equipped inOrderClean isName
  refine ⟨nodes, inOrder, areNodes, areInOrder, left_iff, fun plain => ?_⟩
  have choice_iff :
      ∀ node ∈ inOrder, (∃ name, Method.LeavesOver host language node name) ↔
      Method.HasType node "if" ∧ ¬ Method.LacksTemplate host language node := by
    intro node isNode
    have nodePlain := plain node isNode
    rw [← mapping.ofNodes] at isNode
    obtain ⟨entry, isEntry, rfl⟩ := List.mem_map.mp isNode
    exact Method.exists_leavesOver_iff equipped nodePlain
      (mapping.coded entry isEntry)
  constructor
  · intro free node isNode isChoice
    by_contra found
    obtain ⟨name, leaves⟩ := (choice_iff node isNode).mpr ⟨isChoice, found⟩
    have isName := leaves.isTagName
    exact List.not_mem_nil (free name isName
      ((left_iff name isName).mpr ⟨node, isNode, leaves⟩))
  · intro lacks name isName inCode
    obtain ⟨node, isNode, leaves⟩ := (left_iff name isName).mp inCode
    obtain ⟨isChoice, found⟩ := (choice_iff node isNode).mp ⟨name, leaves⟩
    exact absurd (lacks node isNode isChoice) found

/-- A node that waits for a user. -/
def listener : Value :=
  .object [("id", .text "a"), ("name", .text "Entrada"),
    ("type", .text "webhook"),
    ("parameters", .object [("body", .object [("user", .text "nome")])]),
    ("connections", .object [("main",
      .list [.list [.object [("node", .text "b")]]])])]

/-- A node that chooses how to go on. -/
def chooser : Value :=
  .object [("id", .text "b"), ("name", .text "Escolher"), ("type", .text "if")]

/-- A workflow that waits for a user and chooses. -/
def choosing : Value :=
  .object [("name", .text "Flow"), ("nodes", .list [listener, chooser])]

theorem ordered_choosing :
    ExecutionOrder.ordered (.list [listener, chooser]) =
      .ok [listener, chooser] := by
  cbv

theorem noOwn_chooser : NoOwn freshHost.files .php "if" := by
  intro
  decide +kernel

theorem exists_generate_choosing :
    ∃ code after, ((freshGenerator .php).generate choosing).start freshHost =
      (.ok (some code), after) := by
  have areNames : Parameters.ofClass .asAdded choosing = .ok ["user"] := by
    decide +kernel
  have chooserCoded : ∃ code,
      ((Method.ofNode .standard Language.php.code chooser).start freshHost).1 =
        .ok code :=
    Method.exists_ofNode_eq equipped_freshHost noOwn_chooser rfl
      (by decide +kernel)
      (show ("if", Shipped.phpIfCode) ∈ typedCodes .php by simp [typedCodes])
        (by decide +kernel)
  have exists_parts :
      ∃ parts, IsMadeOf (freshGenerator .php) freshHost choosing parts := by
    refine exists_isMadeOf (exists_eq_ok_of_isOk (by decide +kernel))
      ⟨"Flow", rfl⟩ rfl rfl
      ordered_choosing ?_ ?_ areNames (exists_eq_ok_of_isOk (by decide +kernel))
      (exists_eq_ok_of_isOk (by decide +kernel))
    · simp only [List.forall_mem_cons]
      exact ⟨exists_eq_ok_of_isOk (by decide +kernel), chooserCoded, by simp⟩
    · simp only [List.forall_mem_cons]
      exact ⟨exists_eq_ok_of_isOk (by decide +kernel),
        exists_eq_ok_of_isOk (by decide +kernel), by simp⟩
  obtain ⟨parts, madeOf⟩ := exists_parts
  exact ⟨_, generate_of_isMadeOf equipped_freshHost madeOf⟩

/-- The class for this workflow has placeholders left in it. -/
theorem generate_choosing_leaves_over :
    Equipped freshHost.files ∧ choosing.Unmarked ∧
    ∃ code, (∃ after, ((freshGenerator .php).generate choosing).start
        freshHost = (.ok (some code), after)) ∧
      (∀ node ∈ [listener, chooser], Method.HasPlainType node) ∧
      tag "condition".toList <:+: code.toList ∧
      ¬ TagFree code.toList := by
  have unmarked : choosing.Unmarked := by decide
  have listenerTyped : listener.get "type" (.text "") = .ok (.text "webhook") :=
    rfl
  have chooserTyped : chooser.get "type" (.text "") = .ok (.text "if") := rfl
  have isChoice : Method.normalizedType "if" = "if" := by decide +kernel
  have plain : ∀ node ∈ [listener, chooser], Method.HasPlainType node := by
    simp only [Method.HasPlainType, List.forall_mem_cons,
      Method.hasType_iff listenerTyped,
      Method.hasType_iff chooserTyped, forall_eq']
    exact ⟨by decide +kernel, by decide +kernel, by simp⟩
  have found : Method.HasTemplate freshHost .php chooser Shipped.phpIfCode :=
    Method.hasTemplate_of_typed equipped_freshHost noOwn_chooser chooserTyped
      isChoice (by simp [typedCodes])
  have leaves : Method.LeavesOver freshHost .php chooser "condition".toList :=
    ⟨(Shipped.phpIfCode, branchNames), by simp [leftovers], found, by decide,
      by decide⟩
  obtain ⟨code, after, made⟩ := exists_generate_choosing
  obtain ⟨nodes, inOrder, areNodes, areInOrder, left_iff, free_iff⟩ :=
    generate_leaves_over equipped_freshHost unmarked made
  cases areNodes
  obtain rfl := Except.ok.inj (ordered_choosing.symm.trans areInOrder)
  refine ⟨equipped_freshHost, unmarked, code, ⟨after, made⟩, plain, ?_, ?_⟩
  · exact (left_iff _ (by decide)).mpr ⟨chooser, by simp, leaves⟩
  · rw [free_iff plain]
    exact fun lacks => found.not_lacksTemplate
      (lacks chooser (by simp) ((Method.hasType_iff chooserTyped).mpr isChoice))

end Generator

end Class

end Flowgen
