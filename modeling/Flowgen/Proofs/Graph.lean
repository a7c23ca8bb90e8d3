import Flowgen.Proofs.Walk
import Mathlib.Logic.Relation

namespace Flowgen

/-!
# The graph of a workflow

Nodes and the edges that their connections make, said without the functions
that look for links.  Both ways in which links are read, to find out whether
something leads to a node and to go on from a node, see the same edges.
-/

theorem Key.lowestTerms_ne_text
    (twos : Nat)
    (numerator : Int)
    (content : String) :
    Key.lowestTerms twos numerator ≠ .text content := by
  induction twos generalizing numerator with
  | zero =>
      simp [Key.lowestTerms]
  | succ twos inductionHypothesis =>
      unfold Key.lowestTerms
      split
      · exact inductionHypothesis _
      · simp

theorem Value.key?_eq_text
    {value : Value}
    {content : String} :
    value.key? = some (.text content) ↔ value = .text content := by
  cases value with
  | real number =>
      cases number with
      | finite negative mantissa exponent =>
          simp only [Value.key?, Key.ofBinary64, Option.some.injEq,
            reduceCtorEq, iff_false]
          split
          · simp
          · exact Key.lowestTerms_ne_text _ _ _
      | infinite negative =>
          simp [Value.key?, Key.ofBinary64]
      | nan =>
          simp [Value.key?, Key.ofBinary64]
  | _ =>
      simp [Value.key?, Key.ofInt]

namespace ExecutionOrder

/-- One of the lists of connections under an output. -/
inductive Under : Value → Value → Prop where
  | slot
      {fields : Fields}
      {name : String}
      {list : Value} :
      (name, list) ∈ fields →
      Under (.object fields) list
  | item
      {items : List Value}
      {list : Value} :
      list ∈ items →
      Under (.list items) list

/--
One of the connections in a list; what is no list is a connection by itself.
-/
inductive Inside : Value → Value → Prop where
  | item
      {items : List Value}
      {connection : Value} :
      connection ∈ items →
      Inside (.list items) connection
  | alone
      {connection : Value} :
      connection.kind ≠ .list →
      Inside connection connection

/-- A connection names the id of a node, in its `node` field or as a whole. -/
inductive Names : Value → String → Prop where
  | field
      {fields : Fields}
      {id : String} :
      Fields.get? "node" fields = some (.text id) →
      Names (.object fields) id
  | direct
      {id : String} :
      Names (.text id) id

/-- A node leads to an id if one of its connections names it. -/
def LeadsTo (node : Value) (id : String) : Prop :=
  ∃ outputs name output list connection,
    node.field? "connections" = some (.object outputs) ∧
      (name, output) ∈ outputs ∧
      Under output list ∧
      Inside list connection ∧
      Names connection id

/-- The id of a node, if it is a text. -/
def textId? (node : Value) : Option String :=
  match node.field? "id" with
  | some (.text id) => some id
  | _ => none

/-- The ids of nodes are texts, none of them empty, and pairwise different. -/
def TextIds (nodes : List Value) : Prop :=
  ∃ ids : List String,
    nodes.map textId? = ids.map some ∧ ids.Nodup ∧ "" ∉ ids

/-- An edge between two of some nodes. -/
def Edge (nodes : List Value) (source target : Value) : Prop :=
  source ∈ nodes ∧ target ∈ nodes ∧
    ∃ id, textId? target = some id ∧ LeadsTo source id

/-- The type of a node says that the workflow starts there. -/
def StartTyped (node : Value) : Prop :=
  ∃ type,
    node.field? "type" = some (.text type) ∧
      (".start".toList <:+ type.toList ∨ type = "n8n-nodes-start")

/-- A node is a start by its type, or because no node leads to it. -/
def StartsByItself (nodes : List Value) (node : Value) : Prop :=
  node ∈ nodes ∧ (StartTyped node ∨ ∀ source, ¬ Edge nodes source node)

/--
The start set: the nodes that start by themselves, or else only the first
node.
-/
def Starts (nodes : List Value) (node : Value) : Prop :=
  StartsByItself nodes node ∨
    (∀ other, ¬ StartsByItself nodes other) ∧ nodes.head? = some node

/-- A node is reachable along edges from the start set. -/
def Reachable (nodes : List Value) (node : Value) : Prop :=
  ∃ start, Starts nodes start ∧ Relation.ReflTransGen (Edge nodes) start node

section Ids

theorem idKey?_of_textId?
    {node : Value}
    {id : String}
    (identified : textId? node = some id) :
    idKey? node = some (.text id) := by
  unfold textId? at identified
  split at identified
  · rename_i text found
    cases identified
    simp [idKey?, idOf, found, Value.key?]
  · cases identified

variable {nodes : List Value}

theorem TextIds.exists_id
    (identified : TextIds nodes)
    {node : Value}
    (member : node ∈ nodes) :
    ∃ id, textId? node = some id ∧ id ≠ "" := by
  obtain ⟨ids, idsAre, _, noneEmpty⟩ := identified
  have mapped : textId? node ∈ ids.map some := by
    rw [← idsAre]
    exact List.mem_map_of_mem member
  obtain ⟨id, isId, same⟩ := List.mem_map.mp mapped
  exact ⟨id, same.symm, fun isEmpty => noneEmpty (isEmpty ▸ isId)⟩

theorem TextIds.ids_nodup
    (identified : TextIds nodes) :
    (nodes.map textId?).Nodup := by
  obtain ⟨ids, idsAre, noRepeats, _⟩ := identified
  rw [idsAre]
  exact noRepeats.map fun _ _ => Option.some.inj

theorem TextIds.eq_of_textId?
    (identified : TextIds nodes)
    {first second : Value}
    (firstMember : first ∈ nodes)
    (secondMember : second ∈ nodes)
    (same : textId? first = textId? second) :
    first = second :=
  List.inj_on_of_nodup_map identified.ids_nodup firstMember secondMember same

/-- Numbered nodes with different ids are told apart by what they are. -/
theorem TextIds.step_eq_of_node
    (identified : TextIds nodes)
    {steps : List Step}
    (numbered : Numbered 0 nodes steps)
    {first second : Step}
    (firstMember : first ∈ steps)
    (secondMember : second ∈ steps)
    (same : first.node = second.node) :
    first = second := by
  have nodesNodup : (steps.map Step.node).Nodup := by
    rw [numbered.nodesOfSteps]
    exact identified.ids_nodup.of_map
  exact List.inj_on_of_nodup_map nodesNodup firstMember secondMember same

theorem TextIds.distinctIds
    (identified : TextIds nodes) :
    DistinctIds nodes := by
  obtain ⟨ids, idsAre, noRepeats, _⟩ := identified
  refine ⟨ids.map .text, ?_, noRepeats.map fun _ _ same => Key.text.inj same⟩
  have keyOfText :
      ∀ node ∈ nodes, idKey? node = (textId? node).map Key.text := by
    intro node member
    have mapped : textId? node ∈ ids.map some := by
      rw [← idsAre]
      exact List.mem_map_of_mem member
    obtain ⟨id, _, same⟩ := List.mem_map.mp mapped
    rw [← same]
    exact idKey?_of_textId? same.symm
  calc nodes.map idKey?
      = (nodes.map textId?).map (Option.map Key.text) := by
        rw [List.map_map]
        exact List.map_congr_left keyOfText
    _ = (ids.map Key.text).map some := by
        rw [idsAre, List.map_map, List.map_map]
        rfl

end Ids

section Links

variable {node : Value} {links : List Link} {id : String}

theorem mem_connectionLists
    {output list : Value} :
    list ∈ connectionLists output ↔ Under output list := by
  constructor
  · intro found
    cases output with
    | object fields =>
        obtain ⟨⟨name, list⟩, member, rfl⟩ := List.mem_map.mp found
        exact .slot member
    | list items =>
        exact .item found
    | _ =>
        simp [connectionLists] at found
  · intro under
    cases under with
    | slot member =>
        exact List.mem_map_of_mem (f := Prod.snd) member
    | item member =>
        exact member

theorem mem_connectionsIn
    {list connection : Value} :
    connection ∈ connectionsIn list ↔ Inside list connection := by
  constructor
  · intro found
    cases list with
    | list items =>
        exact .item found
    | _ =>
        simp only [connectionsIn, List.mem_singleton] at found
        subst found
        exact .alone (by simp [Value.kind])
  · intro inside
    cases inside with
    | item member =>
        exact member
    | alone noList =>
        cases list <;> simp_all [connectionsIn, Value.kind]

/-- The links under outputs are the connections that can be read as links. -/
theorem mem_linksIn
    {outputs : Fields}
    {link : Link} :
    link ∈ linksIn outputs ↔
      ∃ name output list connection,
        (name, output) ∈ outputs ∧
          Under output list ∧
          Inside list connection ∧
          Link.ofValue? connection = some link := by
  simp only [linksIn, List.mem_flatMap, List.mem_filterMap, mem_connectionLists,
    mem_connectionsIn, Prod.exists]
  constructor
  · rintro ⟨name, output, member, list, under, connection, inside, isLink⟩
    exact ⟨name, output, list, connection, member, under, inside, isLink⟩
  · rintro ⟨name, output, list, connection, member, under, inside, isLink⟩
    exact ⟨name, output, member, list, under, connection, inside, isLink⟩

theorem pointsTo_field
    {target : Value} :
    (Link.field target).pointsTo (.text id) = true ↔ target = .text id := by
  simp only [Link.pointsTo]
  rw [← Value.key?_eq_text]
  cases target.key? with
  | none =>
      simp
  | some other =>
      simp only [Key.isSame, Bool.and_eq_true, beq_iff_eq, bne_iff_ne,
        Option.some.injEq, and_iff_left_iff_imp]
      rintro rfl
      simp

/-- A connection names an id exactly if its link points to the id. -/
theorem names_iff_pointsTo
    {connection : Value} :
    Names connection id ↔
      ∃ link, Link.ofValue? connection = some link ∧
      link.pointsTo (.text id) = true := by
  constructor
  · intro names
    cases names with
    | field found =>
        exact ⟨_, rfl, by simp [found, Link.pointsTo, Value.key?, Key.isSame]⟩
    | direct =>
        exact ⟨_, rfl, by simp [Link.pointsTo, Key.isSame]⟩
  · rintro ⟨link, isLink, points⟩
    cases connection with
    | object fields =>
        cases isLink
        rw [pointsTo_field] at points
        cases found : Fields.get? "node" fields with
        | none =>
            simp [found] at points
        | some target =>
            rw [found, Option.getD_some] at points
            exact .field (points ▸ found)
    | text content =>
        cases isLink
        have same : content = id := by
          simpa [Link.pointsTo, Key.isSame] using points
        exact same ▸ .direct
    | _ =>
        cases isLink

/--
A connection names an id that is not empty exactly if one can go on from it to
the id.
-/
theorem names_iff_target
    {connection : Value}
    (notEmpty : id ≠ "") :
    Names connection id ↔
      ∃ link, Link.ofValue? connection = some link ∧
      link.target? = some (.text id) := by
  constructor
  · intro names
    cases names with
    | field found =>
        exact ⟨_, rfl, by simp [found, Link.target?, Value.isTruthy, notEmpty]⟩
    | direct =>
        exact ⟨_, rfl, rfl⟩
  · rintro ⟨link, isLink, leads⟩
    cases connection with
    | object fields =>
        cases isLink
        simp only [Link.target?, Option.ite_none_right_eq_some,
          Option.some.injEq] at leads
        cases found : Fields.get? "node" fields with
        | none =>
            simp [found] at leads
        | some target =>
            simp only [found, Option.getD_some] at leads
            exact .field (leads.2 ▸ found)
    | text content =>
        cases isLink
        cases leads
        exact .direct
    | _ =>
        cases isLink

/--
A node has links if it is an object whose connections, if any, are an object.
-/
theorem linksOf_eq_ok :
    linksOf node = .ok links ↔
      node.kind = .object ∧
        ∃ outputs,
          (node.field? "connections").getD (.object []) = .object outputs ∧
            linksIn outputs = links := by
  simp only [linksOf, bind_eq_ok, pure_eq_ok, Value.get_eq_ok]
  constructor
  · rintro ⟨connections, ⟨isObject, found⟩, outputs, areOutputs, linksAre⟩
    cases connections with
    | object _ =>
        cases areOutputs
        exact ⟨isObject, _, found, linksAre⟩
    | _ =>
        cases areOutputs
  · rintro ⟨isObject, outputs, found, linksAre⟩
    exact ⟨.object outputs, ⟨isObject, found⟩, outputs, rfl, linksAre⟩

/--
What a node leads to, by any reading of its links that fits the naming of ids.
-/
theorem leadsTo_iff_of_names
    {reads : Link → Prop}
    (fits : ∀ connection,
      Names connection id ↔
      ∃ link, Link.ofValue? connection = some link ∧ reads link)
    (found : linksOf node = .ok links) :
    LeadsTo node id ↔ ∃ link ∈ links, reads link := by
  obtain ⟨_, outputs, outputsAre, rfl⟩ := linksOf_eq_ok.mp found
  constructor
  · rintro ⟨others, name, output, list, connection, connected, member, under,
      inside, names⟩
    rw [connected, Option.getD_some] at outputsAre
    cases outputsAre
    obtain ⟨link, isLink, readsLink⟩ := (fits connection).mp names
    exact ⟨link, mem_linksIn.mpr
      ⟨name, output, list, connection, member, under, inside, isLink⟩,
      readsLink⟩
  · rintro ⟨link, isFound, readsLink⟩
    obtain ⟨name, output, list, connection, member, under, inside, isLink⟩ :=
      mem_linksIn.mp isFound
    refine ⟨outputs, name, output, list, connection, ?_, member, under, inside,
      (fits connection).mpr ⟨link, isLink, readsLink⟩⟩
    cases connected : node.field? "connections" with
    | none =>
        rw [connected, Option.getD_none] at outputsAre
        cases outputsAre
        simp at member
    | some connections =>
        rw [connected, Option.getD_some] at outputsAre
        rw [outputsAre]

/-- Looking for links to an id finds out whether a node leads there. -/
theorem leadsTo_iff_any_pointsTo
    (found : linksOf node = .ok links) :
    LeadsTo node id ↔ links.any (Link.pointsTo (.text id)) = true := by
  rw [leadsTo_iff_of_names (fun _ => names_iff_pointsTo) found,
    List.any_eq_true]

/-- Going on from a node leads to the ids that it leads to. -/
theorem leadsTo_iff_mem_targets
    (found : linksOf node = .ok links)
    (notEmpty : id ≠ "") :
    LeadsTo node id ↔ .text id ∈ links.filterMap Link.target? := by
  rw [leadsTo_iff_of_names (fun _ => names_iff_target notEmpty) found,
    List.mem_filterMap]

end Links

section StartNodes

variable {nodes : List Value} {steps found : List Step}

theorem hasIncoming_eq_ok
    {id : String}
    {incoming : Bool}
    (asked : hasIncoming (.text id) steps = .ok incoming) :
    incoming = true ↔ ∃ step ∈ steps, LeadsTo step.node id := by
  induction steps with
  | nil =>
      cases asked
      simp
  | cons step steps inductionHypothesis =>
      simp only [hasIncoming, bind_eq_ok] at asked
      obtain ⟨links, linksFound, asked⟩ := asked
      have leads :
          LeadsTo step.node id ↔ links.any (Link.pointsTo (.text id)) = true :=
        leadsTo_iff_any_pointsTo linksFound
      simp only [List.mem_cons, exists_eq_or_imp, leads]
      split at asked
      · rename_i points
        cases asked
        simp [points]
      · rename_i pointsElsewhere
        rw [inductionHypothesis asked]
        simp [pointsElsewhere]

/--
Asking whether the type of a node says that it is a start gives the right
answer.
-/
theorem hasStartType_eq_ok
    {node : Value}
    {typed : Bool}
    (asked : hasStartType node = .ok typed) :
    typed = true ↔ StartTyped node := by
  simp only [hasStartType, bind_eq_ok, pure_eq_ok, Value.get_eq_ok] at asked
  obtain ⟨value, ⟨_, typeIs⟩, type, contentIs, rfl⟩ := asked
  cases value with
  | text content =>
      cases contentIs
      simp only [Text.endsWith, Bool.or_eq_true, List.isSuffixOf_iff_suffix,
        beq_iff_eq]
      cases given : node.field? "type" with
      | none =>
          have isEmpty : type = "" := by
            simpa [given] using typeIs.symm
          subst isEmpty
          simp [StartTyped, given]
      | some value =>
          rw [given, Option.getD_some] at typeIs
          simp [StartTyped, given, typeIs]
  | _ =>
      cases contentIs

/-- A node is taken for a start if it is typed so or nothing leads to it. -/
def startsHere (all : List Step) (step : Step) : Bool :=
  match hasIncoming step.key all, hasStartType step.node with
  | .ok incoming, .ok typed => typed || !incoming
  | _, _ => false

theorem startsAmong_eq_ok
    {all : List Step}
    (asked : startsAmong all steps = .ok found) :
    found = steps.filter (startsHere all) ∧
      ∀ step ∈ steps,
        ∃ incoming typed,
          hasIncoming step.key all = .ok incoming ∧
          hasStartType step.node = .ok typed := by
  induction steps generalizing found with
  | nil =>
      cases asked
      simp
  | cons step steps inductionHypothesis =>
      simp only [startsAmong, bind_eq_ok, pure_eq_ok] at asked
      obtain ⟨incoming, incomingIs, typed, typedIs, rest, restIs, rfl⟩ := asked
      obtain ⟨rfl, restAsked⟩ := inductionHypothesis restIs
      refine ⟨?_, List.forall_mem_cons.mpr
        ⟨⟨incoming, typed, incomingIs, typedIs⟩, restAsked⟩⟩
      have here : startsHere all step = (typed || !incoming) := by
        simp [startsHere, incomingIs, typedIs]
      rw [List.filter_cons, here]

/--
A node with a text for an id is taken for a start exactly if it starts by
itself.
-/
theorem startsHere_iff
    (numbered : Numbered 0 nodes steps)
    (identified : TextIds nodes)
    {step : Step}
    (member : step ∈ steps)
    {incoming typed : Bool}
    (incomingIs : hasIncoming step.key steps = .ok incoming)
    (typedIs : hasStartType step.node = .ok typed) :
    startsHere steps step = true ↔ StartsByItself nodes step.node := by
  have nodeMember : step.node ∈ nodes := by
    rw [← numbered.nodesOfSteps]
    exact List.mem_map_of_mem member
  obtain ⟨id, isId, _⟩ := identified.exists_id nodeMember
  have keyIs : step.key = .text id := by
    have keyed := numbered.idKey?_node member
    rw [idKey?_of_textId? isId] at keyed
    exact (Option.some.inj keyed).symm
  have incomingIff :
      incoming = true ↔ ∃ source, Edge nodes source step.node := by
    rw [keyIs] at incomingIs
    rw [hasIncoming_eq_ok incomingIs]
    constructor
    · rintro ⟨source, isStep, leads⟩
      refine ⟨source.node, ?_, nodeMember, id, isId, leads⟩
      rw [← numbered.nodesOfSteps]
      exact List.mem_map_of_mem isStep
    · rintro ⟨source, isNode, _, other, isOther, leads⟩
      rw [isId] at isOther
      cases isOther
      rw [← numbered.nodesOfSteps] at isNode
      obtain ⟨sourceStep, isStep, rfl⟩ := List.mem_map.mp isNode
      exact ⟨sourceStep, isStep, leads⟩
  have typedIff := hasStartType_eq_ok typedIs
  simp only [startsHere, incomingIs, typedIs, Bool.or_eq_true, typedIff,
    Bool.not_eq_true',
    StartsByItself, nodeMember, true_and, ← not_exists, ← incomingIff,
    Bool.not_eq_true]

/-- The walk starts from the start set, in the order of the nodes. -/
theorem starts_eq_ok
    (numbered : Numbered 0 nodes steps)
    (identified : TextIds nodes)
    {chosen : List Step}
    (asked : starts steps = .ok chosen) :
    chosen.Sublist steps ∧ ∀ step ∈ steps, step ∈ chosen ↔
    Starts nodes step.node := by
  simp only [starts, bind_eq_ok, pure_eq_ok] at asked
  obtain ⟨found, foundIs, rfl⟩ := asked
  obtain ⟨rfl, allAsked⟩ := startsAmong_eq_ok foundIs
  have startsIff : ∀ step ∈ steps,
      startsHere steps step = true ↔ StartsByItself nodes step.node := by
    intro step member
    obtain ⟨incoming, typed, incomingIs, typedIs⟩ := allAsked step member
    exact startsHere_iff numbered identified member incomingIs typedIs
  by_cases noStart : (steps.filter (startsHere steps)).isEmpty = true
  · have noneStarts : ∀ node, ¬ StartsByItself nodes node := by
      intro node startsItself
      have isNode := startsItself.1
      rw [← numbered.nodesOfSteps] at isNode
      obtain ⟨step, isStep, rfl⟩ := List.mem_map.mp isNode
      have kept : step ∈ steps.filter (startsHere steps) :=
        List.mem_filter.mpr ⟨isStep, (startsIff step isStep).mpr startsItself⟩
      rw [List.isEmpty_iff.mp noStart] at kept
      simp at kept
    simp only [noStart, if_true]
    refine ⟨List.take_sublist 1 steps, ?_⟩
    intro step member
    simp only [Starts, noneStarts, false_or, not_false_eq_true, implies_true,
      true_and]
    cases steps with
    | nil =>
        simp at member
    | cons first rest =>
        have headIs : nodes.head? = some first.node := by
          rw [← numbered.nodesOfSteps]
          rfl
        rw [headIs, Option.some.injEq, List.take_succ_cons, List.take_zero,
          List.mem_singleton]
        constructor
        · rintro rfl
          rfl
        · intro same
          exact (identified.step_eq_of_node numbered List.mem_cons_self member
            same).symm
  · simp only [noStart]
    refine ⟨List.filter_sublist, ?_⟩
    intro step member
    have someStarts : ¬ ∀ other, ¬ StartsByItself nodes other := by
      intro noneStarts
      apply noStart
      rw [List.isEmpty_iff, List.filter_eq_nil_iff]
      intro other isStep holds
      exact noneStarts other.node ((startsIff other isStep).mp holds)
    simp only [Bool.false_eq_true, if_false, List.mem_filter, member, true_and,
      startsIff step member, Starts, someStarts, false_and, or_false]

theorem startIds_eq_ok
    {ids : List Value}
    (asked : startIds steps = .ok ids) :
    ∃ chosen, starts steps = .ok chosen ∧
    ids = chosen.map fun step => idOf step.node := by
  simp only [startIds, bind_eq_ok] at asked
  obtain ⟨chosen, chosenIs, idsAre⟩ := asked
  refine ⟨chosen, chosenIs, ?_⟩
  clear chosenIs
  induction chosen generalizing ids with
  | nil =>
      cases idsAre
      rfl
  | cons step chosen inductionHypothesis =>
      simp only [List.mapM_cons, bind_eq_ok, pure_eq_ok, Value.get_eq_ok]
        at idsAre
      obtain ⟨id, ⟨_, idIs⟩, rest, restIs, rfl⟩ := idsAre
      rw [List.map_cons, ← inductionHypothesis restIs, idOf, idIs]

end StartNodes

end ExecutionOrder

end Flowgen
