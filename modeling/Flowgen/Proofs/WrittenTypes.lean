import Flowgen.Proofs.AgentPrompts
import Flowgen.Proofs.MethodIdentifiers
import Flowgen.Proofs.Substitutions

namespace Flowgen

/-!
# The ways to write the type of a node

A type can be written by itself, behind `n8n-nodes-`, as one of the base nodes
or as a node of a package.  Of a package only what stands behind the last dot
counts, so the node has the method for the type.  A base node keeps `base.` in
front of its type, and has the plain method unless there is a template of that
name.
-/

open Template

namespace Text

section Folding

variable {pattern text : List Char}

/-- One form of the small sigma for both. -/
def oneSigma (character : Char) : Char :=
  if character = 'ς' then 'σ' else character

/-- The lower case of a text where the place of a sigma does not count. -/
def folded (text : List Char) : List Char :=
  text.flatMap fun character => (lowered [character]).map oneSigma

theorem folded_append
    (first second : List Char) :
    folded (first ++ second) = folded first ++ folded second :=
  List.flatMap_append

/--
Up to the form of sigma the lower case of a text is that of its characters.
-/
theorem map_lowerAfter
    (before text : List Char) :
    (lowerAfter before text).map oneSigma = folded text := by
  induction text generalizing before with
  | nil =>
      rfl
  | cons character text inductionHypothesis =>
      have alone : folded (character :: text) =
          (lowered [character]).map oneSigma ++ folded text := by
        rw [folded, List.flatMap_cons, folded]
      rw [alone, lowerAfter, List.map_append, inductionHypothesis, lowered,
        lowerAfter, lowerAfter, List.append_nil]
      by_cases isSigma : character = 'Σ'
      · rw [if_pos isSigma, if_pos isSigma]
        congr 1
        cases nextIsCased before && !nextIsCased text <;> decide
      · rw [if_neg isSigma, if_neg isSigma]

theorem map_oneSigma
    (noFinal : 'ς' ∉ text) :
    text.map oneSigma = text := by
  have same : ∀ character ∈ text, oneSigma character = character := by
    intro character member
    rw [oneSigma, if_neg]
    rintro rfl
    exact noFinal member
  rw [List.map_congr_left same, List.map_id']

/--
Where a pattern without sigma is in lower case does not depend on the places
of sigmas.
-/
theorem infix_lowered_iff
    (noSigma : 'σ' ∉ pattern)
    (noFinal : 'ς' ∉ pattern) :
    pattern <:+: lowered text ↔ pattern <:+: folded text := by
  rw [← map_lowerAfter [], ← lowered, List.infix_map_iff]
  constructor
  · exact fun found => ⟨pattern, found, (map_oneSigma noFinal).symm⟩
  · rintro ⟨part, found, rfl⟩
    have noFinalInPart : 'ς' ∉ part := fun member =>
      noSigma (List.mem_map.mpr ⟨'ς', member, by decide⟩)
    rwa [map_oneSigma noFinalInPart]

end Folding

theorem replaceAll_append_of_not_mem
    {first : Char}
    {front pattern replacement : List Char}
    (lacks : first ∉ front)
    (text : List Char) :
    replaceAll (first :: pattern) replacement (front ++ text) =
      front ++ replaceAll (first :: pattern) replacement text := by
  induction front with
  | nil =>
      rfl
  | cons character front inductionHypothesis =>
      rw [List.mem_cons, not_or] at lacks
      have elsewhere : ¬ first :: pattern <+: character :: (front ++ text) :=
        fun starts => lacks.1 (List.cons_prefix_cons.mp starts).1
      rw [List.cons_append, replaceAll_cons elsewhere,
        inductionHypothesis lacks.2, List.cons_append]

end Text

namespace Fields

variable {α : Type} {fields : List (String × α)} {name other : String}
  {value : α}

theorem get?_set_self :
    get? name (set name value fields) = some value := by
  induction fields with
  | nil =>
      simp [set, get?]
  | cons field fields inductionHypothesis =>
      rw [set]
      split
      · simp [get?]
      · rename_i differs
        rw [get?, if_neg differs, inductionHypothesis]

theorem get?_set_of_ne
    (differs : other ≠ name) :
    get? other (set name value fields) = get? other fields := by
  induction fields with
  | nil =>
      simp [set, get?, Ne.symm differs]
  | cons field fields inductionHypothesis =>
      rw [set]
      split
      · rename_i isName
        rw [get?, get?, if_neg (Ne.symm differs),
          if_neg (isName ▸ Ne.symm differs)]
      · rw [get?, get?, inductionHypothesis]

end Fields

namespace Method

/-- The ways to write the type of a node. -/
inductive Writing where
  | bare
  | prefixed
  | based
  | packaged
  deriving DecidableEq

namespace Writing

/-- A type as it is written, in a package if it is written so. -/
def text (package type : String) : Writing → String
  | bare => type
  | prefixed => "n8n-nodes-" ++ type
  | based => "n8n-nodes-base." ++ type
  | packaged => "@n8n/" ++ package ++ "." ++ type

/--
What a node without a name of its own goes by: all that stands behind the
dots.
-/
def callName (type : String) : Writing → String
  | prefixed => "n8n-nodes-" ++ type
  | bare | based | packaged => type

/-- A type that is understood when it is written in some way. -/
def Recognised (type : String) : Writing → Prop
  | bare => Text.startsWith type "n8n-nodes-" = false
  | prefixed => Text.contains type "n8n-nodes-" = false
  | based => False
  | packaged => True

end Writing

/-- A written type that says it is an agent, whatever the case. -/
def IsAgentType (written : String) : Prop :=
  Text.contains (Text.lower written) "langchain" = true ∧
    Text.contains (Text.lower written) "agent" = true

section Agents

variable {package type : String} {pattern : List Char}

theorem contains_lower_iff
    {word : String}
    (noSigma : 'σ' ∉ word.toList)
    (noFinal : 'ς' ∉ word.toList)
    (written : String) :
    Text.contains (Text.lower written) word = true ↔
      word.toList <:+: Text.folded written.toList := by
  rw [Text.contains, Text.occurs_iff, Text.lower, String.toList_ofList,
    Text.infix_lowered_iff noSigma noFinal]

/--
A word is in a written type if it is in the type, unless the type is that of a
package.
-/
theorem infix_folded_text
    (noDash : '-' ∉ pattern)
    (noDot : '.' ∉ pattern)
    (isOther : ¬ pattern <:+: "n8n-nodes".toList)
    (isNoBase : ¬ pattern <:+: "n8n-nodes-base".toList)
    (writing : Writing)
    (found : pattern <:+: Text.folded (writing.text package type).toList) :
    pattern <:+: Text.folded (Writing.packaged.text package type).toList := by
  have inType : pattern <:+: Text.folded type.toList →
      pattern <:+: Text.folded (Writing.packaged.text package type).toList := by
    intro found
    rw [Writing.text, String.toList_append, Text.folded_append]
    exact List.infix_append_of_infix_right found
  cases writing with
  | bare =>
      exact inType found
  | prefixed =>
      have opened : Text.folded "n8n-nodes-".toList =
          "n8n-nodes".toList ++ ['-'] := by decide
      have divided : Text.folded (Writing.prefixed.text package type).toList =
          "n8n-nodes".toList ++ '-' :: Text.folded type.toList := by
        rw [Writing.text, String.toList_append, Text.folded_append, opened,
          List.append_assoc, List.singleton_append]
      rw [divided] at found
      exact inType ((Text.infix_append_cons_cases noDash found).resolve_left
        isOther)
  | based =>
      have opened : Text.folded "n8n-nodes-base.".toList =
          "n8n-nodes-base".toList ++ ['.'] := by
        decide
      have divided : Text.folded (Writing.based.text package type).toList =
          "n8n-nodes-base".toList ++ '.' :: Text.folded type.toList := by
        rw [Writing.text, String.toList_append, Text.folded_append, opened,
          List.append_assoc, List.singleton_append]
      rw [divided] at found
      exact inType ((Text.infix_append_cons_cases noDot found).resolve_left
        isNoBase)
  | packaged =>
      exact found

/--
A type that is written as an agent in some way is so in a package as well.
-/
theorem isAgentType_packaged
    {writing : Writing}
    (isAgent : IsAgentType (writing.text package type)) :
    IsAgentType (Writing.packaged.text package type) := by
  unfold IsAgentType at isAgent ⊢
  rw [contains_lower_iff (by decide) (by decide),
    contains_lower_iff (by decide) (by decide)] at isAgent ⊢
  refine isAgent.imp ?_ ?_
  all_goals
    refine infix_folded_text ?_ ?_ ?_ ?_ writing
    all_goals decide

end Agents

section Resolved

variable {package type : String} {writing : Writing}

/--
Removing the name of the nodes changes a type if it is in it, and only then.
-/
theorem replace_eq_self_iff :
    Text.replace type "n8n-nodes-" "" = type ↔
    Text.contains type "n8n-nodes-" = false := by
  rw [← Bool.not_eq_true, Text.contains, Text.occurs_iff, ← String.toList_inj,
    Text.replace_toList]
  constructor
  · intro same found
    obtain ⟨times, isPositive, counts⟩ := @Text.exists_count_replaceAll
      "n8n-nodes-".toList "".toList type.toList (by decide)
    have dashes := counts '-'
    have inName : "n8n-nodes-".toList.count '-' = 2 := by decide
    have inNothing : "".toList.count '-' = 0 := by decide
    have positive := isPositive found
    rw [same, inName, inNothing] at dashes
    omega
  · exact Text.replaceAll_eq_self

/-- The type that a written one stands for. -/
def Writing.resolved (type : String) : Writing → String
  | bare => if Text.startsWith type "n8n-nodes-"
      then Text.replace type "n8n-nodes-" "" else type
  | prefixed => Text.replace type "n8n-nodes-" ""
  | based => "base." ++ Text.replace type "n8n-nodes-" ""
  | packaged => type

/-- A written type that is no agent stands for what is left of it. -/
theorem normalizedType_text
    (noDot : '.' ∉ type.toList)
    (noSlash : '/' ∉ type.toList)
    (notAgent : ¬ IsAgentType (writing.text package type)) :
    normalizedType (writing.text package type) = writing.resolved type := by
  rw [IsAgentType, ← Bool.and_eq_true] at notAgent
  unfold normalizedType
  rw [if_neg notAgent]
  cases writing with
  | bare =>
      have isPlain : ¬ Text.startsWith type "@n8n/" = true := by
        rw [Text.startsWith_iff]
        exact fun starts => noSlash (starts.subset (by decide))
      rw [Writing.text, if_neg isPlain, Writing.resolved]
  | prefixed =>
      have starts :
          Text.startsWith ("n8n-nodes-" ++ type) "n8n-nodes-" = true := by
        rw [Text.startsWith_iff, String.toList_append]
        exact List.prefix_append _ _
      rw [Writing.text, if_pos starts, Writing.resolved]
      apply String.toList_injective
      rw [Text.replace_toList, String.toList_append,
        Text.replaceAll_append_self (by decide), Text.replace_toList]
      rfl
  | based =>
      have written : ("n8n-nodes-base." ++ type).toList =
          "n8n-nodes-".toList ++ ("base.".toList ++ type.toList) := by
        rw [String.toList_append]
        rfl
      have starts :
          Text.startsWith ("n8n-nodes-base." ++ type) "n8n-nodes-" = true := by
        rw [Text.startsWith_iff, written]
        exact List.prefix_append _ _
      have passed : Text.replaceAll "n8n-nodes-".toList "".toList
          ("base.".toList ++ type.toList) =
          "base.".toList ++ Text.replaceAll "n8n-nodes-".toList "".toList
            type.toList :=
        @Text.replaceAll_append_of_not_mem 'n' _ _ _ (by decide) type.toList
      rw [Writing.text, if_pos starts, Writing.resolved]
      apply String.toList_injective
      rw [Text.replace_toList, written, Text.replaceAll_append_self (by decide),
        passed, String.toList_append, Text.replace_toList]
      rfl
  | packaged =>
      have written : (Writing.packaged.text package type).toList =
          '@' :: ("n8n/".toList ++
            (package.toList ++ (".".toList ++ type.toList))) := by
        simp [Writing.text, String.toList_append]
      have isOther :
          ¬ Text.startsWith (Writing.packaged.text package type) "n8n-nodes-" =
            true := by
        rw [Text.startsWith_iff, written]
        exact fun starts =>
          absurd (List.cons_prefix_cons.mp starts).1 (by decide)
      have starts : Text.startsWith (Writing.packaged.text package type)
          "@n8n/" = true := by
        rw [Text.startsWith_iff, written]
        exact ⟨package.toList ++ (".".toList ++ type.toList), rfl⟩
      rw [if_neg isOther, if_pos starts, Writing.text,
        Text.getLast?_split noDot, Writing.resolved, Option.getD_some]

/--
A written type stands for the type in it if it is written so that it is
understood.
-/
theorem resolved_eq_iff
    (noDot : '.' ∉ type.toList) :
    writing.resolved type = type ↔ writing.Recognised type := by
  cases writing with
  | bare =>
      rw [Writing.resolved, Writing.Recognised, ← Bool.not_eq_true]
      split
      · rename_i starts
        refine iff_of_false ?_ (not_not_intro starts)
        rw [replace_eq_self_iff, Bool.not_eq_false, Text.contains,
          Text.occurs_iff]
        rw [Text.startsWith_iff] at starts
        exact starts.isInfix
      · rename_i isOther
        exact iff_of_true rfl isOther
  | prefixed =>
      rw [Writing.resolved, replace_eq_self_iff, Writing.Recognised]
  | based =>
      rw [Writing.resolved, Writing.Recognised, iff_false]
      intro same
      rw [← same, String.toList_append] at noDot
      exact noDot (List.mem_append_left _ (by decide))
  | packaged =>
      exact iff_of_true rfl trivial

end Resolved

section Typed

variable {fields : Fields} {name first second type package : String}

/-- The node with some fields and a type. -/
def typed (fields : Fields) (type : String) : Value :=
  .object (Fields.set "type" (.text type) fields)

theorem typed_get_type
    (fallback : Value) :
    (typed fields type).get "type" fallback = .ok (.text type) := by
  rw [typed, Value.get, Fields.get?_set_self, Option.getD_some]

theorem typed_get
    (isOther : name ≠ "type")
    (fallback : Value) :
    (typed fields type).get name fallback =
      .ok ((Fields.get? name fields).getD fallback) := by
  rw [typed, Value.get, Fields.get?_set_of_ne isOther]

/--
Fields with a name that is blank or counts as false: their node is called by
its type.
-/
def BlankName (fields : Fields) : Prop :=
  ((Fields.get? "name" fields).getD (.text "node")).isTruthy = false ∨
    ∃ content, (Fields.get? "name" fields).getD (.text "node") = .text content ∧
      Text.trim content = ""

theorem typed_get_name
    (fields : Fields)
    (type : String) :
    (typed fields type).get "name" (.text "node") =
      .ok ((Fields.get? "name" fields).getD (.text "node")) :=
  typed_get (by decide) _

/-- A node without a name of its own is called by the last piece of its type. -/
theorem sourceName_typed_of_blank
    (blank : BlankName fields)
    (type : String) :
    Naming.sourceName (typed fields type) =
      .ok (.text ((Text.split type ".").getLast?.getD "node")) := by
  unfold Naming.sourceName
  rw [typed_get_name, typed_get_type]
  rcases blank with isFalsy | ⟨content, nameIs, isBlank⟩
  · simp [isFalsy, Value.textFor, bind, Except.bind, pure, Except.pure]
  · rw [nameIs]
    by_cases isTruthy : (Value.text content).isTruthy = true
    · simp [isTruthy, isBlank, Value.textFor, bind, Except.bind, pure,
        Except.pure, Except.map]
    · simp [isTruthy, Value.textFor, bind, Except.bind, pure, Except.pure]

/-- What a node with a name of its own is called does not depend on its type. -/
theorem sourceName_typed_of_named
    (named : ¬ BlankName fields) :
    Naming.sourceName (typed fields first) =
      Naming.sourceName (typed fields second) := by
  unfold BlankName at named
  unfold Naming.sourceName
  rw [typed_get_name, typed_get_name]
  generalize (Fields.get? "name" fields).getD (.text "node") = name at named
  obtain ⟨isTruthy, notBlank⟩ := not_or.mp named
  rw [Bool.not_eq_false] at isTruthy
  cases name with
  | text content =>
      have hasText : Text.trim content ≠ "" :=
        fun isBlank => notBlank ⟨content, rfl, isBlank⟩
      simp [isTruthy, hasText, Value.textFor, bind, Except.bind, pure,
        Except.pure, Except.map]
  | _ =>
      simp [isTruthy, Value.textFor, bind, Except.bind, Except.map]

/-- The method from a template depends on the type only by its name. -/
theorem ofTemplate_typed
    (sameName : Naming.methodName (typed fields first) =
      Naming.methodName (typed fields second))
    (template : String) :
    ofTemplate template (typed fields first) type =
      ofTemplate template (typed fields second) type := by
  simp (disch := decide) only [ofTemplate, slots, nodeCode, commonSlots,
    typed_get, sameName]

theorem getLast?_split_text
    (noDot : '.' ∉ type.toList)
    (writing : Writing) :
    (Text.split (writing.text package type) ".").getLast? =
      some (writing.callName type) := by
  cases writing with
  | bare =>
      rw [Writing.text, Text.split_of_not_mem noDot]
      rfl
  | prefixed =>
      have noDotBehind : '.' ∉ ("n8n-nodes-" ++ type).toList := by
        rw [String.toList_append, List.mem_append, not_or]
        exact ⟨by decide, noDot⟩
      rw [Writing.text, Text.split_of_not_mem noDotBehind]
      rfl
  | based =>
      have written : "n8n-nodes-base." = "n8n-nodes-base" ++ "." := by decide
      rw [Writing.text, written, Text.getLast?_split noDot]
      rfl
  | packaged =>
      exact Text.getLast?_split noDot _

/-- The name of the method for a node that has no name of its own. -/
theorem methodName_text_of_blank
    (noDot : '.' ∉ type.toList)
    (blank : BlankName fields)
    (writing : Writing) :
    Naming.methodName (typed fields (writing.text package type)) =
      .ok (Naming.methodFor (writing.callName type)) := by
  refine Naming.methodName_of_source ?_
  rw [sourceName_typed_of_blank blank, getLast?_split_text noDot,
    Option.getD_some]

/--
The name of a method depends on how the type is written only if the node has
no name.
-/
theorem methodName_text
    {first second : Writing}
    (noDot : '.' ∉ type.toList)
    (same : BlankName fields → first.callName type = second.callName type) :
    Naming.methodName (typed fields (first.text package type)) =
      Naming.methodName (typed fields (second.text package type)) := by
  by_cases blank : BlankName fields
  · rw [methodName_text_of_blank noDot blank,
      methodName_text_of_blank noDot blank, same blank]
  · rw [Naming.methodName, Naming.methodName, sourceName_typed_of_named blank]

end Typed

section Alike

variable {store : Store} {language package type : String} {host after : Host}
  {template : NodeTemplate} {fields : Fields}

/--
Nodes that differ only in how their type is written have the method from the
template for the type if it is understood as it is written.  They all have the
same one, unless they have no name of their own: then what is written behind
the name of the nodes is called by all of it.  As one of the base nodes a type
is never understood: the node has the plain method if there is no template for
the type with `base.` in front of it.
-/
theorem ofNode_written_alike
    (noDot : '.' ∉ type.toList)
    (noSlash : '/' ∉ type.toList)
    (loaded : (store.loadNode (.text type) (.text language)).start host =
      (.ok (some template), after))
    (notAgent : ¬ IsAgentType (Writing.packaged.text package type)) :
    (∀ writing : Writing,
      normalizedType (writing.text package type) = type ↔
      writing.Recognised type) ∧
    (∀ writing : Writing, writing.Recognised type →
      (ofNode store language (typed fields (writing.text package type))).start
        host =
        (ofTemplate template.method (typed fields (writing.text package type))
          type, after)) ∧
    (∀ first second : Writing, first.Recognised type → second.Recognised type →
      (BlankName fields → first.callName type = second.callName type) →
      (ofNode store language (typed fields (first.text package type))).start
        host =
        (ofNode store language (typed fields (second.text package type))).start
          host) ∧
    (BlankName fields → ∀ writing : Writing,
      Naming.methodName (typed fields (writing.text package type)) =
        .ok (Naming.methodFor (writing.callName type))) ∧
    (Text.contains type "n8n-nodes-" = false → ∀ later,
      (store.loadNode (.text ("base." ++ type)) (.text language)).start host =
        (.ok none, later) →
      (ofNode store language (typed fields
        (Writing.based.text package type))).start host =
        (defaultMethod (typed fields (Writing.based.text package type)),
          later)) := by
  have resolved : ∀ writing : Writing,
      normalizedType (writing.text package type) = writing.resolved type :=
        fun writing =>
    normalizedType_text noDot noSlash fun isAgent =>
      notAgent (isAgentType_packaged isAgent)
  have understood : ∀ writing : Writing,
      normalizedType (writing.text package type) = type ↔
      writing.Recognised type := by
    intro writing
    rw [resolved, resolved_eq_iff noDot]
  have fromTemplate : ∀ writing : Writing, writing.Recognised type →
      (ofNode store language (typed fields (writing.text package type))).start
        host =
        (ofTemplate template.method (typed fields (writing.text package type))
          type, after) := by
    intro writing recognised
    have isType := (understood writing).mpr recognised
    have load :=
      start_ofNode_of_load (@typed_get_type fields _ _) (isType.symm ▸ loaded)
    rw [load, Option.elim_some, isType]
  refine ⟨understood, fromTemplate,
    fun first second firstRecognised secondRecognised same => ?_,
    methodName_text_of_blank noDot, fun absent later missing => ?_⟩
  · rw [fromTemplate first firstRecognised,
      fromTemplate second secondRecognised]
    exact congrArg (·, after) (ofTemplate_typed (methodName_text noDot same) _)
  · have isBase :
        normalizedType (Writing.based.text package type) = "base." ++ type := by
      rw [resolved, Writing.resolved, replace_eq_self_iff.mpr absent]
    rw [start_ofNode_of_load (typed_get_type _) (isBase.symm ▸ missing),
      Option.elim_none]

/-- The fields of an agent. -/
def assistant : Fields :=
  [("id", .text "a"), ("name", .text "AI Agent"),
    ("parameters", .object [("prompt", .text "Oi")])]

/-- Nothing is shipped for agents as base nodes. -/
theorem exists_loadNode_base :
    ∃ later, (Store.standard.loadNode (.text "base.aiAgent")
      (.text "php")).start Class.Generator.freshHost = (.ok none, later) := by
  have absent :
      ((Store.standard.loadNode (.text "base.aiAgent") (.text "php")).start
      Class.Generator.freshHost).1.toOption.map Option.isNone = some true := by
    decide +kernel
  generalize (Store.standard.loadNode (.text "base.aiAgent")
    (.text "php")).start Class.Generator.freshHost = outcome at absent ⊢
  obtain ⟨result, later⟩ := outcome
  obtain ⟨template?, isLoaded, isNone⟩ := Option.map_eq_some_iff.mp absent
  rw [Option.isNone_iff_eq_none.mp isNone] at isLoaded
  exact ⟨later, congrArg (·, later) (eq_ok_of_toOption isLoaded)⟩

theorem recognised_aiAgent
    {writing : Writing}
    (isOther : writing ≠ .based) :
    writing.Recognised "aiAgent" := by
  cases writing with
  | bare =>
      show Text.startsWith "aiAgent" "n8n-nodes-" = false
      decide +kernel
  | prefixed =>
      show Text.contains "aiAgent" "n8n-nodes-" = false
      decide +kernel
  | based =>
      exact absurd rfl isOther
  | packaged =>
      trivial

/--
The method from the template for agents starts with a remark, and the plain
method does not.
-/
theorem defaultMethod_ne_ofTemplate
    (node : Value) :
    defaultMethod (typed assistant "n8n-nodes-base.aiAgent") ≠
      ofTemplate agentTemplate node "aiAgent" := by
  have plain :
      (defaultMethod (typed assistant "n8n-nodes-base.aiAgent")).toOption.map
      (fun code => code.toList.head?) = some (some 'p') := by
    decide +kernel
  obtain ⟨remarks, rest, _, templateIs⟩ := exists_agentTemplate_eq
  intro same
  obtain ⟨code, isCode, isPlain⟩ := Option.map_eq_some_iff.mp plain
  rw [eq_ok_of_toOption isCode, eq_comm] at same
  obtain ⟨slots, slotsMade, made⟩ := bind_eq_ok.mp same
  rw [← pure_eq_ok.mp made, fill_toList, templateIs, agentMethod,
    List.cons_append,
    filled_cons_of_outside (named_slots slotsMade) (by decide),
    List.head?_cons] at isPlain
  exact absurd isPlain (by decide)

/--
An agent has its method in three writings of its type, and the plain one as a
base node.
-/
theorem ofNode_written_alike_aiAgent :
    '.' ∉ "aiAgent".toList ∧ '/' ∉ "aiAgent".toList ∧
    ¬ IsAgentType (Writing.packaged.text "tools" "aiAgent") ∧
    ∃ template later,
      (Store.standard.loadNode (.text "aiAgent") (.text "php")).start
        Class.Generator.freshHost =
        (.ok (some template), Class.Generator.freshHost) ∧
      (∀ writing : Writing, writing ≠ .based →
        (ofNode .standard "php" (typed assistant
            (writing.text "tools" "aiAgent"))).start Class.Generator.freshHost =
          (ofTemplate template.method (typed assistant "aiAgent") "aiAgent",
            Class.Generator.freshHost)) ∧
      (ofNode .standard "php" (typed assistant "n8n-nodes-base.aiAgent")).start
          Class.Generator.freshHost =
        (defaultMethod (typed assistant "n8n-nodes-base.aiAgent"), later) ∧
      defaultMethod (typed assistant "n8n-nodes-base.aiAgent") ≠
        ofTemplate template.method (typed assistant "aiAgent") "aiAgent" := by
  have notAgent : ¬ IsAgentType (Writing.packaged.text "tools" "aiAgent") := by
    unfold IsAgentType
    decide +kernel
  have noOwn : NoOwn Class.Generator.freshHost.files .php "aiAgent" := by
    intro
    decide +kernel
  obtain ⟨title, loaded⟩ :=
    Class.Generator.equipped_freshHost.exists_loadNode_eq noOwn
    (show ("aiAgent", Shipped.phpAgentCode) ∈ typedCodes .php by
      simp [typedCodes])
  obtain ⟨later, missing⟩ := exists_loadNode_base
  have notBlank : ¬ BlankName assistant := by
    rintro (isFalsy | ⟨content, isName, isBlank⟩)
    · exact absurd isFalsy (by decide)
    · cases isName
      exact absurd isBlank (by decide)
  obtain ⟨_, fromTemplate, alike, _, asBase⟩ :=
    @ofNode_written_alike .standard "php" "tools"
    "aiAgent" _ _ _ assistant (by decide) (by decide) loaded notAgent
  have written : Writing.based.text "tools" "aiAgent" =
      "n8n-nodes-base.aiAgent" := by decide
  rw [written] at asBase
  refine ⟨by decide, by decide, notAgent, _, later, loaded,
    fun writing isOther => ?_,
    asBase (by decide +kernel) later missing, defaultMethod_ne_ofTemplate _⟩
  have asBare := alike writing .bare (recognised_aiAgent isOther)
    (recognised_aiAgent (by decide)) fun blank => absurd blank notBlank
  exact asBare.trans (fromTemplate .bare (recognised_aiAgent (by decide)))

end Alike

end Method

end Flowgen
