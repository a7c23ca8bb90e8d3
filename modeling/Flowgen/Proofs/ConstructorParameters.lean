import Flowgen.Proofs.GeneratedClass
import Flowgen.Proofs.NestedTexts

namespace Flowgen

/-!
# What the constructor of a class takes

The parameters of a class are the keys that a webhook at the start of its
workflow lists, the names that texts in any node refer to, and for the node at
the start also the first name of each nested text below the keys above it.
-/

namespace Parameters

variable {found : Option Value}

/-- The parameters of a node, as fields. -/
def HasParameters (node : Value) (fields : Fields) : Prop :=
  node.get "parameters" (.object []) = .ok (.object fields)

/-- A node with a word in its type, whatever the case. -/
def TypeMentions (node : Value) (word : String) : Prop :=
  ∃ type, typeOf node = .ok type ∧ Text.contains type word = true

/-- A node whose type says that the workflow starts there. -/
def StartsWorkflow (node : Value) : Prop :=
  TypeMentions node "webhook" ∨ TypeMentions node "start"

/--
The node that a workflow starts with: the first that says so, or else the
first of all.
-/
inductive IsEntry (nodes : List Value) (entry : Value) : Prop where
  | marked
      (before after : List Value)
      (nodesAre : nodes = before ++ entry :: after)
      (starts : StartsWorkflow entry)
      (noEarlier : ∀ node ∈ before, ¬ StartsWorkflow node)
  | first
      (after : List Value)
      (nodesAre : nodes = entry :: after)
      (noStart : ∀ node ∈ nodes, ¬ StartsWorkflow node)

/-- A webhook with a key in its body, its query or its headers. -/
def DeclaresKey (node : Value) (name : String) : Prop :=
  TypeMentions node "webhook" ∧
    ∃ fields, HasParameters node fields ∧
      ∃ source ∈ ["body", "query", "headers"], ∃ inner,
        Fields.get? source fields = some (.object inner) ∧
        name ∈ inner.map Prod.fst

/--
A node that holds a text whose first reference gives a name below the keys
above it.
-/
def DeclaresNested (node : Value) (name : String) : Prop :=
  ∃ fields, HasParameters node fields ∧
    HoldsSome fields fun keys content =>
      ∃ first, RefersFirst content first ∧ name = nestedName keys first

/-- A node that holds a text which refers to a name. -/
def UsesName (node : Value) (name : String) : Prop :=
  ∃ fields, HasParameters node fields ∧
    HoldsSome fields fun _ content => Refers content name

/-- A node with a text at any depth of its parameters that refers to a name. -/
def MentionsName (node : Value) (name : String) : Prop :=
  ∃ fields, HasParameters node fields ∧
    ∃ content ∈ (Value.object fields).texts, Refers content name

variable {names : List String} {name : String} {node entry : Value}
  {nodes : List Value}

theorem IsEntry.mem
    (isEntry : IsEntry nodes entry) :
    entry ∈ nodes := by
  cases isEntry with
  | marked before after nodesAre =>
      simp [nodesAre]
  | first after nodesAre =>
      simp [nodesAre]

theorem UsesName.mentionsName
    (uses : UsesName node name) :
    MentionsName node name := by
  obtain ⟨fields, has, keys, content, holds, refers⟩ := uses
  exact ⟨fields, has, content, holds.mem_texts, refers⟩

theorem HasParameters.unique
    {fields others : Fields}
    (has : HasParameters node fields)
    (alsoHas : HasParameters node others) :
    fields = others := by
  rw [HasParameters, has, Except.ok.injEq, Value.object.injEq] at alsoHas
  exact alsoHas

theorem mem_fieldNames
    {value : Option Value} :
    name ∈ fieldNames (value.getD (.object [])) ↔
      ∃ inner, value = some (.object inner) ∧ name ∈ inner.map Prod.fst := by
  cases value with
  | none =>
      simp [fieldNames]
  | some value =>
      cases value <;> simp [fieldNames]

theorem mem_webhookNames
    {fields : Fields}
    (made : webhookNames (.object fields) = .ok names) :
    name ∈ names ↔
      ∃ source ∈ ["body", "query", "headers"], ∃ inner,
        Fields.get? source fields = some (.object inner) ∧
        name ∈ inner.map Prod.fst := by
  simp only [webhookNames, Value.get, bind, Except.bind, pure, Except.pure,
    Except.ok.injEq] at made
  simp only [← made, List.mem_append, mem_fieldNames, List.exists_mem_cons_iff,
    or_assoc, List.not_mem_nil, false_and, exists_false, or_false]

theorem typeMentions_iff
    {type word : String}
    (isType : typeOf node = .ok type) :
    TypeMentions node word ↔ Text.contains type word = true := by
  constructor
  · rintro ⟨other, isOther, mentions⟩
    rw [isType, Except.ok.injEq] at isOther
    rwa [isOther]
  · exact fun mentions => ⟨type, isType, mentions⟩

theorem mem_direct_iff
    {type : String}
    {fields : Fields}
    (isType : typeOf node = .ok type)
    (has : HasParameters node fields)
    (made : (if Text.contains type "webhook" then webhookNames (.object fields)
      else .ok []) = .ok names) :
    name ∈ names ↔ DeclaresKey node name := by
  rw [DeclaresKey, typeMentions_iff isType]
  split at made
  · rename_i mentions
    rw [mem_webhookNames made]
    constructor
    · exact fun listed => ⟨mentions, fields, has, listed⟩
    · rintro ⟨_, others, alsoHas, listed⟩
      rwa [alsoHas.unique has] at listed
  · rename_i mentionsNot
    obtain rfl := Except.ok.inj made
    simp [mentionsNot]

/--
A node declares the keys of a webhook, and names below the keys of its
parameters.
-/
theorem mem_ofNode
    (made : ofNode node = .ok names) :
    name ∈ names ↔ DeclaresKey node name ∨ DeclaresNested node name := by
  obtain ⟨type, direct, fields, areParameters, isType, areDirect, rfl⟩ :=
    ofNode_eq_ok made
  have nested :
      name ∈ declaredInFields "" fields ↔ DeclaresNested node name := by
    rw [mem_declaredInFields_empty]
    constructor
    · exact fun holds => ⟨fields, areParameters, holds⟩
    · rintro ⟨others, has, holds⟩
      rwa [has.unique areParameters] at holds
  rw [List.mem_eraseDups, List.mem_append,
    mem_direct_iff isType areParameters areDirect, nested]

/--
The node that is looked for first is the first one that says it starts the
workflow.
-/
theorem entryNode?_eq_ok
    (made : entryNode? nodes = .ok found) :
    match found with
    | some entry => ∃ before after, nodes = before ++ entry :: after ∧
        StartsWorkflow entry ∧ ∀ node ∈ before, ¬ StartsWorkflow node
    | none => ∀ node ∈ nodes, ¬ StartsWorkflow node := by
  induction nodes with
  | nil =>
      cases made
      simp
  | cons node nodes inductionHypothesis =>
      unfold entryNode? at made
      obtain ⟨type, isType, made⟩ := bind_eq_ok.mp made
      have starts : StartsWorkflow node ↔
          (Text.contains type "webhook" || Text.contains type "start") =
            true := by
        rw [StartsWorkflow, typeMentions_iff isType, typeMentions_iff isType,
          Bool.or_eq_true]
      split at made
      · rename_i doesStart
        cases made
        exact ⟨[], nodes, rfl, starts.mpr doesStart, by simp⟩
      · rename_i doesNotStart
        have noStart : ¬ StartsWorkflow node := starts.not.mpr doesNotStart
        have inRest := inductionHypothesis made
        cases found with
        | none =>
            exact List.forall_mem_cons.mpr ⟨noStart, inRest⟩
        | some entry =>
            obtain ⟨before, after, rfl, entryStarts, noEarlier⟩ := inRest
            exact ⟨node :: before, after, rfl, entryStarts,
              List.forall_mem_cons.mpr ⟨noStart, noEarlier⟩⟩

theorem entryNode?_texts_ne_ok
    {texts : List String}
    (notNil : texts ≠ []) :
    entryNode? (texts.map Value.text) ≠ .ok found := by
  obtain ⟨text, rest, rfl⟩ := List.exists_cons_of_ne_nil notNil
  intro made
  obtain ⟨type, isType, _⟩ := bind_eq_ok.mp made
  obtain ⟨value, got, _⟩ := bind_eq_ok.mp isType
  cases got

/-- Only a list has elements that can be nodes. -/
theorem eq_list_of_entryNode?
    {value : Value}
    (areNodes : value.elements = .ok nodes)
    (isTruthy : value.isTruthy = true)
    (made : entryNode? nodes = .ok found) :
    value = .list nodes ∧ nodes ≠ [] := by
  cases value with
  | list items =>
      cases areNodes
      simpa [Value.isTruthy] using isTruthy
  | text content =>
      cases areNodes
      have areTexts : content.toList.map
          (fun character => Value.text (String.ofList [character])) =
          (content.toList.map fun character => String.ofList [character]).map
            Value.text := by
        rw [List.map_map]
        rfl
      rw [areTexts] at made
      refine absurd made (entryNode?_texts_ne_ok ?_)
      simpa [Value.isTruthy] using isTruthy
  | object fields =>
      cases areNodes
      have areTexts : fields.map (fun field => Value.text field.1) =
          (fields.map Prod.fst).map Value.text := by
        rw [List.map_map]
        rfl
      rw [areTexts] at made
      refine absurd made (entryNode?_texts_ne_ok ?_)
      simpa [Value.isTruthy] using isTruthy
  | _ =>
      cases areNodes

/--
The declared names of a workflow are those of the node that it starts with.
-/
theorem mem_ofWorkflow
    {workflow value : Value}
    (areNodes : workflow.get "nodes" (.list []) = .ok value)
    (isTruthy : value.isTruthy = true)
    (made : ofWorkflow workflow = .ok names) :
    ∃ nodes entry, value = .list nodes ∧ IsEntry nodes entry ∧
      ∀ name, name ∈ names ↔
      DeclaresKey entry name ∨ DeclaresNested entry name := by
  unfold ofWorkflow at made
  obtain ⟨_, areValue, made⟩ := bind_eq_ok.mp made
  obtain rfl := Except.ok.inj (areNodes.symm.trans areValue)
  rw [if_pos isTruthy] at made
  obtain ⟨nodes, areElements, made⟩ := bind_eq_ok.mp made
  obtain ⟨found, isFound, made⟩ := bind_eq_ok.mp made
  obtain ⟨isList, notNil⟩ := eq_list_of_entryNode? areElements isTruthy isFound
  have entryIs := entryNode?_eq_ok isFound
  cases found with
  | some entry =>
      obtain ⟨before, after, nodesAre, starts, noEarlier⟩ := entryIs
      exact ⟨nodes, entry, isList,
        .marked before after nodesAre starts noEarlier,
        fun name => mem_ofNode made⟩
  | none =>
      obtain ⟨entry, after, nodesAre⟩ := List.exists_cons_of_ne_nil notNil
      rw [nodesAre] at made
      exact ⟨nodes, entry, isList, .first after nodesAre entryIs,
        fun name => mem_ofNode made⟩

theorem mem_usedByNodes
    (made : usedByNodes nodes = .ok names) :
    name ∈ names ↔ ∃ node ∈ nodes, UsesName node name := by
  induction nodes generalizing names with
  | nil =>
      cases made
      simp
  | cons node nodes inductionHypothesis =>
      unfold usedByNodes at made
      obtain ⟨parameters, areParameters, made⟩ := bind_eq_ok.mp made
      obtain ⟨fields, areFields, made⟩ := bind_eq_ok.mp made
      obtain ⟨others, areOthers, made⟩ := bind_eq_ok.mp made
      obtain rfl := pure_eq_ok.mp made
      obtain rfl := Value.fieldsFor_eq_ok.mp areFields
      have here : name ∈ usedInFields fields ↔ UsesName node name := by
        rw [mem_usedInFields]
        constructor
        · exact fun holds => ⟨fields, areParameters, holds⟩
        · rintro ⟨_, has, holds⟩
          rwa [has.unique areParameters] at holds
      rw [List.mem_append, here, inductionHypothesis areOthers,
        List.exists_mem_cons_iff]

theorem mem_ofClass
    {workflow value : Value}
    (areNodes : workflow.get "nodes" (.list []) = .ok value)
    (isTruthy : value.isTruthy = true)
    {order : SetOrder}
    (made : ofClass order workflow = .ok names) :
    ∃ nodes entry, value = .list nodes ∧ IsEntry nodes entry ∧
      ∀ name, name ∈ names ↔
        DeclaresKey entry name ∨ DeclaresNested entry name ∨
        ∃ node ∈ nodes, UsesName node name := by
  obtain ⟨declared, used, missing, areDeclared, areUsed, rfl, isMissing⟩ :=
    (classNames_ofClass made).parts
  obtain ⟨nodes, entry, rfl, isEntry, mem_declared⟩ :=
    mem_ofWorkflow areNodes isTruthy areDeclared
  unfold usedBy at areUsed
  obtain ⟨_, areValue, areUsed⟩ := bind_eq_ok.mp areUsed
  obtain rfl := Except.ok.inj (areNodes.symm.trans areValue)
  obtain ⟨_, areElements, areUsed⟩ := bind_eq_ok.mp areUsed
  obtain ⟨all, areAll, areUsed⟩ := bind_eq_ok.mp areUsed
  obtain rfl := pure_eq_ok.mp areUsed
  obtain rfl := Except.ok.inj areElements
  refine ⟨nodes, entry, rfl, isEntry, fun name => ?_⟩
  rw [← or_assoc, ← mem_declared, ← mem_usedByNodes areAll, List.mem_append,
    isMissing, List.mem_eraseDups]
  constructor
  · exact Or.imp_right And.left
  · by_cases isDeclared : name ∈ declared
    · exact fun _ => .inl isDeclared
    · exact Or.imp_right fun isUsed => ⟨isUsed, isDeclared⟩

/--
Names that are all that a workflow needs, and no others.  A reference in a
text that stands in a list by itself, and not in an object, may be among them
or not.
-/
structure AreNeeded (nodes : List Value) (entry : Value) (names : List String) :
  Prop where
  keys : ∀ name, DeclaresKey entry name → name ∈ names
  nested : ∀ name, DeclaresNested entry name → name ∈ names
  references : ∀ node ∈ nodes, ∀ name, UsesName node name → name ∈ names
  nothingElse : ∀ name ∈ names,
    DeclaresKey entry name ∨ DeclaresNested entry name ∨
    ∃ node ∈ nodes, MentionsName node name

theorem areNeeded_of_mem_iff
    (mem_iff : ∀ name, name ∈ names ↔
      DeclaresKey entry name ∨ DeclaresNested entry name ∨
      ∃ node ∈ nodes, UsesName node name) :
    AreNeeded nodes entry names where
  keys name isKey := (mem_iff name).mpr (.inl isKey)
  nested name isNested := (mem_iff name).mpr (.inr (.inl isNested))
  references node member name uses :=
    (mem_iff name).mpr (.inr (.inr ⟨node, member, uses⟩))
  nothingElse name isName := by
    refine ((mem_iff name).mp isName).imp_right (.imp_right ?_)
    exact fun ⟨node, member, uses⟩ => ⟨node, member, uses.mentionsName⟩

end Parameters

namespace Class.Generator

open Parameters Template Session

/--
Code that is the class template with a constructor for parameters with these
names.
-/
def TakesParameters
    (generator : Generator)
    (host : Host)
    (code : String)
    (names : List String) : Prop :=
  ∃ (template : String) (loaded : Host) (parts : Parts),
    (generator.store.loadClass (.text generator.language)).start host =
      (.ok (some template), loaded) ∧
    code = fill template (classSlots generator.language parts.className
      parts.workflowName
      parts.codes parts.calls parts.constructor parts.imports) ∧
    Class.constructor generator.language (parameterFields names) =
      .ok parts.constructor

theorem takesParameters_of_generate
    {generator : Generator}
    {host after : Host}
    {workflow : Value}
    {code : String}
    (made : (generator.generate workflow).start host =
      (.ok (some code), after)) :
    ∃ order names value, ofClass order workflow = .ok names ∧ names.Nodup ∧
      workflow.get "nodes" (.list []) = .ok value ∧ value.isTruthy = true ∧
      TakesParameters generator host code names := by
  obtain ⟨template, loaded, parts, isLoaded, madeOf, codeIs⟩ :=
    generate_eq_some made
  obtain ⟨names, areNames, classNames, isConstructor⟩ := madeOf.constructor
  obtain ⟨value, _, _, areNodes, isTruthy, _⟩ := madeOf.methods
  exact ⟨_, names, value, areNames, classNames.nodup, areNodes, isTruthy,
    template, loaded, parts, isLoaded, codeIs, isConstructor⟩

/-- The constructor of a class takes the parameters that its workflow needs. -/
theorem generate_takes_needed
    {generator : Generator}
    {host after : Host}
    {workflow : Value}
    {code : String}
    (made : (generator.generate workflow).start host =
      (.ok (some code), after)) :
    ∃ nodes entry names,
      workflow.get "nodes" (.list []) = .ok (.list nodes) ∧
      IsEntry nodes entry ∧
      TakesParameters generator host code names ∧ names.Nodup ∧
      AreNeeded nodes entry names := by
  obtain ⟨_, names, value, areNames, nodup, areNodes, isTruthy, takes⟩ :=
    takesParameters_of_generate made
  obtain ⟨nodes, entry, rfl, isEntry, mem_iff⟩ :=
    mem_ofClass areNodes isTruthy areNames
  exact ⟨nodes, entry, names, areNodes, isEntry, takes, nodup,
    areNeeded_of_mem_iff mem_iff⟩

/-- The constructor of the class for the orders takes what they need. -/
theorem generate_orders_takes_needed :
    ∃ code, (∃ after, ((freshGenerator .javascript).generate orders).start
        freshHost = (.ok (some code), after)) ∧
      ∃ nodes entry names,
        orders.get "nodes" (.list []) = .ok (.list nodes) ∧
        IsEntry nodes entry ∧
        TakesParameters (freshGenerator .javascript) freshHost code names ∧
        names.Nodup ∧
        AreNeeded nodes entry names := by
  obtain ⟨code, after, made⟩ := exists_generate_orders
  exact ⟨code, ⟨after, made⟩, generate_takes_needed made⟩

theorem typeOf_receiver : typeOf receiver = .ok "webhook" := by
  decide +kernel

theorem isEntry_receiver : IsEntry [sender, receiver] receiver := by
  have typeOf_sender : typeOf sender = .ok "mail" := by decide +kernel
  refine .marked [sender] [] rfl (.inl ⟨_, typeOf_receiver, by decide⟩) ?_
  simp only [List.forall_mem_singleton, StartsWorkflow,
    typeMentions_iff typeOf_sender]
  decide

theorem not_declaresKey_receiver : ¬ DeclaresKey receiver "body_user" := by
  have listed : webhookNames (.object [("body", .object
      [("user", .text "=\x7b\x7b$json.body.user\x7d\x7d")])]) = .ok ["user"] :=
        rfl
  rw [← mem_direct_iff typeOf_receiver rfl listed]
  decide

theorem mentionsName_iff
    {node : Value}
    {fields : Fields}
    {name : String}
    (has : HasParameters node fields) :
    MentionsName node name ↔
    ∃ content ∈ (Value.object fields).texts, name ∈ references content := by
  simp only [mem_references]
  constructor
  · rintro ⟨others, alsoHas, found⟩
    rwa [alsoHas.unique has] at found
  · exact fun found => ⟨fields, has, found⟩

theorem not_mentionsName_orders :
    ¬ ∃ node ∈ [sender, receiver], MentionsName node "body_user" := by
  have ofSender : HasParameters sender
      [("to", .text "=\x7b\x7b$json.query.email\x7d\x7d")] := rfl
  have ofReceiver : HasParameters receiver
      [("body", .object [("user",
        .text "=\x7b\x7b$json.body.user\x7d\x7d")])] := rfl
  simp only [List.exists_mem_cons_iff, List.not_mem_nil, false_and,
    exists_false, or_false,
    mentionsName_iff ofSender, mentionsName_iff ofReceiver]
  decide

/--
The constructor of the class for the orders takes a parameter that is no key
of a webhook and that no text refers to: a nested reference is declared below
its key as well.
-/
theorem generate_orders_takes_nested :
    ∃ code, (∃ after, ((freshGenerator .javascript).generate orders).start
        freshHost = (.ok (some code), after)) ∧
      ∃ names, TakesParameters (freshGenerator .javascript) freshHost code
        names ∧ orders.get "nodes" (.list []) = .ok (.list [sender, receiver]) ∧
        IsEntry [sender, receiver] receiver ∧ "body_user" ∈ names ∧
        ¬ DeclaresKey receiver "body_user" ∧
        ¬ ∃ node ∈ [sender, receiver], MentionsName node "body_user" := by
  obtain ⟨code, after, made⟩ := exists_generate_orders
  obtain ⟨_, names, value, areNames, _, _, _, takes⟩ :=
    takesParameters_of_generate made
  have member : "body_user" ∈ names :=
    (ofClass_perm areNames ofClass_orders).mem_iff.mpr (by decide)
  exact ⟨code, ⟨after, made⟩, names, takes, rfl, isEntry_receiver, member,
    not_declaresKey_receiver, not_mentionsName_orders⟩

end Class.Generator

end Flowgen
