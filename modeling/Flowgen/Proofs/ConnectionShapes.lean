import Flowgen.Proofs.RenamedNodes

namespace Flowgen.ExecutionOrder

/-!
# Shapes of connections

Under an output stand lists of connections: in a list, or each behind its
index.  Both shapes are read alike.  A list of such lists behind one index is
a level too deep: no connection in it is found, and the nodes come as they
stand.
-/

/-- Change what stands under each output. -/
def reshapeConnections (reshape : Value → Value) : Value → Value
  | .object outputs =>
      .object (outputs.map fun output => (output.1, reshape output.2))
  | other => other

/-- Change what stands under each output of a node. -/
def reshapeNode (reshape : Value → Value) : Value → Value
  | .object fields =>
      .object (fields.map fun field =>
        (field.1, if field.1 = "connections"
          then reshapeConnections reshape field.2 else field.2))
  | other => other

/-- All the lists of an output behind one index. -/
def wrapped (output : Value) : Value :=
  .object [("0", output)]

/-- Each list of an output behind its own index. -/
def indexed : Value → Value
  | .list lists =>
      .object (lists.zipIdx.map fun entry => (toString entry.2, entry.1))
  | other => other

/--
Connections under the names of outputs, as lists of connections in a list.
-/
def nestedConnections (outputs : List (String × List (List Value))) : Value :=
  .object (outputs.map fun output => (output.1, .list (output.2.map .list)))

/-- A node whose connections, if it has any, are nested and each name an id. -/
def Nested (node : Value) : Prop :=
  ∃ outputs,
    (node.field? "connections").getD (.object []) = nestedConnections outputs ∧
      ∀ output ∈ outputs, ∀ list ∈ output.2, ∀ connection ∈ list, ∃ id,
      Names connection id

section Reshaping

variable {reshape : Value → Value} {node : Value}

theorem field?_reshapeNode
    (name : String) :
    (reshapeNode reshape node).field? name =
      if name = "connections" then (node.field? name).map
        (reshapeConnections reshape)
      else node.field? name := by
  cases node with
  | object fields =>
      simp only [reshapeNode, Value.field?]
      induction fields with
      | nil =>
          simp [Fields.get?]
      | cons field fields inductionHypothesis =>
          rw [List.map_cons, Fields.get?, Fields.get?, inductionHypothesis]
          by_cases isField : field.1 = name
          · rw [if_pos isField, if_pos isField, isField]
            split <;> rfl
          · rw [if_neg isField, if_neg isField]
  | _ =>
      simp [reshapeNode, Value.field?]

theorem textId?_reshapeNode :
    textId? (reshapeNode reshape node) = textId? node := by
  rw [textId?, textId?, field?_reshapeNode, if_neg (by decide)]

theorem hasStartType_reshapeNode :
    hasStartType (reshapeNode reshape node) = hasStartType node := by
  have sameType := @field?_reshapeNode reshape node "type"
  rw [if_neg (by decide)] at sameType
  cases node with
  | object fields =>
      have isObject : (reshapeNode reshape (.object fields)).kind = .object :=
        rfl
      rw [hasStartType, hasStartType, Value.get_of_kind isObject, sameType]
      rfl
  | _ =>
      rfl

/--
The links of a node with reshaped connections are those under the reshaped
outputs.
-/
theorem linksOf_reshapeNode
    {outputs : Fields}
    (isObject : node.kind = .object)
    (connected : (node.field? "connections").getD (.object []) =
      .object outputs) :
    linksOf (reshapeNode reshape node) =
      .ok (linksIn (outputs.map fun output =>
        (output.1, reshape output.2))) := by
  refine linksOf_eq_ok.mpr ⟨?_, _, ?_, rfl⟩
  · cases node <;> simp_all [reshapeNode, Value.kind]
  · rw [field?_reshapeNode, if_pos rfl]
    cases found : node.field? "connections" with
    | none =>
        rw [found, Option.getD_none] at connected
        cases connected
        rfl
    | some connections =>
        rw [found, Option.getD_some] at connected
        rw [connected]
        rfl

end Reshaping

/-- Behind one index no connection of nested ones is found. -/
theorem linksIn_wrapped
    (outputs : List (String × List (List Value))) :
    linksIn ((outputs.map fun output =>
      (output.1, Value.list (output.2.map .list))).map
      fun output => (output.1, wrapped output.2)) = [] := by
  have tooDeep : ∀ lists : List (List Value),
      (lists.map Value.list).filterMap Link.ofValue? = [] := by
    intro lists
    simp [Link.ofValue?]
  rw [linksIn, List.map_map, List.flatMap_map, List.flatMap_eq_nil_iff]
  intro output _
  exact (List.append_nil _).trans (tooDeep output.2)

/-- Behind their own indices the same lists of connections are found. -/
theorem linksIn_indexed
    (outputs : Fields) :
    linksIn (outputs.map fun output => (output.1, indexed output.2)) =
      linksIn outputs := by
  have sameLists :
      ∀ output, connectionLists (indexed output) = connectionLists output := by
    intro output
    cases output with
    | list lists =>
        rw [indexed, connectionLists, connectionLists, List.map_map]
        exact List.zipIdx_map_fst 0 lists
    | _ =>
        rfl
  simp only [linksIn, List.flatMap_map, sameLists]

section Unlinked

variable {nodes : List Value} {all steps : List Step}

theorem hasIncoming_of_unlinked
    (unlinked : ∀ step ∈ steps, linksOf step.node = .ok [])
    (key : Key) :
    hasIncoming key steps = .ok false := by
  induction steps with
  | nil =>
      rfl
  | cons step steps inductionHypothesis =>
      obtain ⟨first, others⟩ := List.forall_mem_cons.mp unlinked
      rw [hasIncoming, first]
      exact inductionHypothesis others

/-- Nodes that nothing leads to all start by themselves. -/
theorem startsAmong_of_unlinked
    (unlinked : ∀ step ∈ all, linksOf step.node = .ok [])
    (typed : ∀ step ∈ steps, ∃ typed, hasStartType step.node = .ok typed) :
    startsAmong all steps = .ok steps := by
  induction steps with
  | nil =>
      rfl
  | cons step steps inductionHypothesis =>
      obtain ⟨⟨isTyped, typedIs⟩, others⟩ := List.forall_mem_cons.mp typed
      rw [startsAmong, hasIncoming_of_unlinked unlinked, typedIs,
        inductionHypothesis others]
      simp [bind, Except.bind, pure, Except.pure]

/-- A walk to nodes that lead nowhere reaches just these, in their order. -/
theorem walk_of_unlinked
    {chosen : List Step}
    {marked : List Key}
    (stands : ∀ step ∈ chosen, StandsFor steps step.key step)
    (keyed : ∀ step ∈ chosen, idKey? step.node = some step.key)
    (unlinked : ∀ step ∈ chosen, linksOf step.node = .ok [])
    (distinct : (chosen.map Step.key).Nodup)
    (fresh : ∀ step ∈ chosen, step.key ∉ marked) :
    walk steps (chosen.map fun step => idOf step.node) marked =
      .ok (chosen, (chosen.map Step.key).reverse ++ marked) := by
  induction chosen generalizing marked with
  | nil =>
      rw [List.map_nil, walk]
      rfl
  | cons step chosen inductionHypothesis =>
      rw [List.forall_mem_cons] at stands keyed unlinked fresh
      rw [List.map_cons, List.nodup_cons] at distinct
      have leadsNowhere : targets step = .ok [] := by
        rw [targets, unlinked.1]
        rfl
      have restFresh : ∀ other ∈ chosen, other.key ∉ step.key :: marked := by
        intro other member isMarked
        rcases List.mem_cons.mp isMarked with same | wasMarked
        · exact distinct.1 (same ▸ List.mem_map_of_mem member)
        · exact fresh.2 other member wasMarked
      rw [List.map_cons, walk_of_fresh (Value.key_eq_ok.mpr keyed.1) fresh.1
        stands.1, leadsNowhere]
      simp only [bind, Except.bind, List.nil_append]
      rw [inductionHypothesis stands.2 keyed.2 unlinked.2 distinct.2 restFresh]
      simp

theorem positions_of_unlinked
    (identified : TextIds nodes)
    (unlinked : ∀ node ∈ nodes, linksOf node = .ok [])
    (typed : ∀ node ∈ nodes, ∃ typed, hasStartType node = .ok typed) :
    positions (.list nodes) = .ok (List.range nodes.length) := by
  obtain ⟨steps, numbering⟩ := exists_stepsFrom
    (fun node member => (identified.exists_id member).imp fun _ isId => isId.1)
      0
  have numbered := stepsFrom_numbered numbering
  have isNode : ∀ step ∈ steps, step.node ∈ nodes := by
    intro step member
    rw [← numbered.nodesOfSteps]
    exact List.mem_map_of_mem member
  have stepsUnlinked : ∀ step ∈ steps, linksOf step.node = .ok [] :=
    fun step member => unlinked _ (isNode step member)
  have allStart : starts steps = .ok steps := by
    rw [starts, startsAmong_of_unlinked stepsUnlinked fun step member =>
      typed _ (isNode step member)]
    cases steps <;> rfl
  have starting :
      startIds steps = .ok (steps.map fun step => idOf step.node) := by
    obtain ⟨ids, idsAre⟩ := exists_startIds
      (fun step member => (linksOf_eq_ok.mp (stepsUnlinked step member)).1)
      (fun step member => ⟨_, stepsUnlinked step member⟩)
      (fun step member => typed _ (isNode step member))
    obtain ⟨chosen, chosenAre, rfl⟩ := startIds_eq_ok idsAre
    rw [allStart] at chosenAre
    cases chosenAre
    exact idsAre
  have walked := @walk_of_unlinked steps steps []
    (fun step => numbered.standsFor identified)
      (fun step => numbered.idKey?_node)
    stepsUnlinked (numbered.keys_nodup identified.distinctIds) (by simp)
  have noneLeft : (steps.filter fun step =>
      !((steps.map Step.key).reverse ++ []).contains step.key) = [] := by
    rw [List.filter_eq_nil_iff]
    intro step member isLeft
    have isMarked : step.key ∈ steps.map Step.key := List.mem_map_of_mem member
    simp [isMarked] at isLeft
  rw [positions_list, positionsOf, numbering]
  simp only [bind, Except.bind, starting, walked, pure, Except.pure]
  rw [noneLeft, List.append_nil, numbered.positionsOfSteps,
    List.range_eq_range']

end Unlinked

section Faults

variable {nodes : List Value} {steps : List Step} {fault : Fault}

/--
Among nodes with links, the types alone decide how looking for start nodes
fails.
-/
theorem discard_startsAmong
    {all : List Step}
    (linked : ∀ step ∈ all, ∃ links, linksOf step.node = .ok links) :
    discard (startsAmong all steps) =
      ((steps.map Step.node).map hasStartType).forM discard := by
  induction steps with
  | nil =>
      rfl
  | cons step steps inductionHypothesis =>
      obtain ⟨incoming, incomingIs⟩ := exists_hasIncoming linked step.key
      rw [startsAmong, incomingIs, List.map_cons, List.map_cons, List.forM,
        ← inductionHypothesis]
      cases hasStartType step.node with
      | error fault =>
          rfl
      | ok typed =>
          cases startsAmong all steps <;> rfl

theorem positions_of_fault
    (numbering : stepsFrom 0 nodes = .ok steps)
    (failed : startsAmong steps steps = .error fault) :
    positions (.list nodes) = .error fault := by
  rw [positions_list, positionsOf, numbering]
  simp only [bind, Except.bind, startIds, starts, failed]

end Faults

namespace Nested

variable {node : Value}

theorem exists_links
    (nested : Nested node)
    (isObject : node.kind = .object) :
    ∃ links, linksOf node = .ok links := by
  obtain ⟨outputs, connected, _⟩ := nested
  exact ⟨_, linksOf_eq_ok.mpr ⟨isObject, _, connected, rfl⟩⟩

theorem exists_id_of_target
    (nested : Nested node)
    {target : Value}
    (isTarget : target ∈ targetsOf node) :
    ∃ id, target = .text id := by
  obtain ⟨outputs, connected, named⟩ := nested
  cases found : linksOf node with
  | error fault =>
      simp [targetsOf, found] at isTarget
  | ok links =>
      obtain ⟨_, _, alsoConnected, rfl⟩ := linksOf_eq_ok.mp found
      rw [connected] at alsoConnected
      cases alsoConnected
      rw [targetsOf, found] at isTarget
      obtain ⟨link, isLink, leads⟩ := List.mem_filterMap.mp isTarget
      obtain ⟨name, output, list, connection, isOutput, under, inside, read⟩ :=
        mem_linksIn.mp isLink
      obtain ⟨⟨_, lists⟩, isGiven, same⟩ := List.mem_map.mp isOutput
      cases same
      cases under with
      | item isList =>
          obtain ⟨items, isItems, rfl⟩ := List.mem_map.mp isList
          cases inside with
          | item isConnection =>
              obtain ⟨id, names⟩ :=
                named _ isGiven items isItems connection isConnection
              cases names with
              | field hasNode =>
                  cases read
                  simp only [Link.target?, hasNode, Option.getD_some,
                    Option.ite_none_right_eq_some, Option.some.injEq] at leads
                  exact ⟨id, leads.2.symm⟩
              | direct =>
                  cases read
                  cases leads
                  exact ⟨id, rfl⟩
          | alone noList =>
              exact absurd rfl noList

theorem readable
    (nested : Nested node)
    (isObject : node.kind = .object)
    (typed : ∃ typed, hasStartType node = .ok typed) :
    Readable node := by
  refine ⟨(exists_linksOf isObject).mp (nested.exists_links isObject),
    (exists_hasStartType isObject).mp typed, fun target isTarget => ?_⟩
  obtain ⟨id, rfl⟩ := nested.exists_id_of_target isTarget
  exact ⟨.text id, rfl⟩

theorem linksOf_wrapped
    (nested : Nested node)
    (isObject : node.kind = .object) :
    linksOf (reshapeNode wrapped node) = .ok [] := by
  obtain ⟨outputs, connected, _⟩ := nested
  rw [linksOf_reshapeNode isObject connected, linksIn_wrapped]

theorem linksOf_indexed
    (nested : Nested node)
    (isObject : node.kind = .object) :
    linksOf (reshapeNode indexed node) = linksOf node := by
  obtain ⟨outputs, connected, _⟩ := nested
  rw [linksOf_reshapeNode isObject connected, linksIn_indexed,
    linksOf_eq_ok.mpr ⟨isObject, _, connected, rfl⟩]

end Nested

section Orders

variable {nodes : List Value}

theorem TextIds.reshaped
    (identified : TextIds nodes)
    (reshape : Value → Value) :
    TextIds (nodes.map (reshapeNode reshape)) := by
  obtain ⟨ids, idsAre, facts⟩ := identified
  refine ⟨ids, ?_, facts⟩
  rw [List.map_map, ← idsAre]
  exact List.map_congr_left fun _ _ => textId?_reshapeNode

theorem TextIds.kind_eq
    (identified : TextIds nodes)
    {node : Value}
    (member : node ∈ nodes) :
    node.kind = .object := by
  obtain ⟨id, isId, _⟩ := identified.exists_id member
  exact kind_of_textId? isId

/--
With all lists behind one index the nodes come as they stand, unless ordering
faults.
-/
theorem positions_wrapped
    (identified : TextIds nodes)
    (nested : ∀ node ∈ nodes, Nested node) :
    positions (.list (nodes.map (reshapeNode wrapped))) =
      (positions (.list nodes)).map fun _ => List.range nodes.length := by
  have hasId :
      ∀ {nodes}, TextIds nodes → ∀ node ∈ nodes, ∃ id, textId? node = some id :=
    fun identified node member =>
      (identified.exists_id member).imp fun _ isId => isId.1
  have wrappedIdentified := identified.reshaped wrapped
  obtain ⟨steps, numbering⟩ := exists_stepsFrom (hasId identified) 0
  obtain ⟨others, otherNumbering⟩ :=
    exists_stepsFrom (hasId wrappedIdentified) 0
  have numbered := stepsFrom_numbered numbering
  have otherNumbered := stepsFrom_numbered otherNumbering
  have linked : ∀ node ∈ nodes, ∃ links, linksOf node = .ok links :=
    fun node member =>
      (nested node member).exists_links (identified.kind_eq member)
  have unlinked :
      ∀ node ∈ nodes.map (reshapeNode wrapped), linksOf node = .ok [] := by
    rw [List.forall_mem_map]
    exact fun node member =>
      (nested node member).linksOf_wrapped (identified.kind_eq member)
  have sameTypes : (nodes.map (reshapeNode wrapped)).map hasStartType =
      nodes.map hasStartType := by
    rw [List.map_map]
    exact List.map_congr_left fun _ _ => hasStartType_reshapeNode
  -- Both runs look for start nodes without trouble from the links, so only a
  -- type can stop them.
  have sameFault : discard (startsAmong others others) =
      discard (startsAmong steps steps) := by
    rw [discard_startsAmong, discard_startsAmong, otherNumbered.nodesOfSteps,
      numbered.nodesOfSteps, sameTypes]
    · rw [← numbered.nodesOfSteps, List.forall_mem_map] at linked
      exact linked
    · rw [← otherNumbered.nodesOfSteps, List.forall_mem_map] at unlinked
      exact fun step member => ⟨_, unlinked step member⟩
  cases asked : startsAmong steps steps with
  | error fault =>
      have alsoFailed : startsAmong others others = .error fault := by
        rw [asked] at sameFault
        cases otherAsked : startsAmong others others with
        | error other =>
            rw [otherAsked] at sameFault
            cases sameFault
            rfl
        | ok found =>
            rw [otherAsked] at sameFault
            cases sameFault
      rw [positions_of_fault numbering asked,
        positions_of_fault otherNumbering alsoFailed]
      rfl
  | ok found =>
      have typed : ∀ node ∈ nodes, ∃ typed, hasStartType node = .ok typed := by
        rw [← numbered.nodesOfSteps, List.forall_mem_map]
        intro step member
        obtain ⟨_, typed, _, typedIs⟩ := (startsAmong_eq_ok asked).2 step member
        exact ⟨typed, typedIs⟩
      obtain ⟨result, returned⟩ := exists_ordered identified fun node member =>
        (nested node member).readable (identified.kind_eq member)
          (typed node member)
      obtain ⟨_, _, _, _, _, placesAre, _⟩ := ordered_eq_ok returned
      have otherTyped : ∀ node ∈ nodes.map (reshapeNode wrapped),
          ∃ typed, hasStartType node = .ok typed := by
        rw [List.forall_mem_map]
        intro node member
        rw [hasStartType_reshapeNode]
        exact typed node member
      rw [placesAre, positions_of_unlinked wrappedIdentified unlinked
        otherTyped, List.length_map]
      rfl

/-- With each list behind its own index the order stays as it was. -/
theorem positions_indexed
    (identified : TextIds nodes)
    (nested : ∀ node ∈ nodes, Nested node) :
    positions (.list (nodes.map (reshapeNode indexed))) =
      positions (.list nodes) := by
  refine @Renaming.positions_eq_of_corresponds .same _ _ ?_
  rw [List.forall₂_map_right_iff, List.forall₂_same]
  intro node member
  obtain ⟨id, isId, _⟩ := identified.exists_id member
  refine ⟨⟨id, isId, ?_⟩, hasStartType_reshapeNode, ?_⟩
  · rw [textId?_reshapeNode, isId, Renaming.text_same]
  · rw [(nested node member).linksOf_indexed (identified.kind_eq member),
      Renaming.link_same]
    cases linksOf node <;> simp [Except.map]

/--
With all lists of connections behind one index the nodes have no edges and
come as they stand, so the order is the same as before exactly if it was that
of the nodes already.  With each list behind its own index it is always the
same.
-/
theorem wrapped_keeps_order_iff
    (identified : TextIds nodes)
    (nested : ∀ node ∈ nodes, Nested node) :
    (∀ source target, ¬ Edge (nodes.map (reshapeNode wrapped)) source target) ∧
      positions (.list (nodes.map (reshapeNode wrapped))) =
        (positions (.list nodes)).map (fun _ => List.range nodes.length) ∧
      (positions (.list (nodes.map (reshapeNode wrapped))) =
        positions (.list nodes) ↔
        ∀ places, positions (.list nodes) = .ok places →
        places = List.range nodes.length) ∧
      positions (.list (nodes.map (reshapeNode indexed))) =
        positions (.list nodes) := by
  have asTheyStand := positions_wrapped identified nested
  refine ⟨?_, asTheyStand, ?_, positions_indexed identified nested⟩
  · rintro source target ⟨isNode, _, id, _, leads⟩
    obtain ⟨node, member, rfl⟩ := List.mem_map.mp isNode
    have noLinks :=
      (nested node member).linksOf_wrapped (identified.kind_eq member)
    rw [leadsTo_iff_any_pointsTo noLinks] at leads
    cases leads
  · rw [asTheyStand]
    cases positions (.list nodes) with
    | error fault =>
        simp [Except.map]
    | ok places =>
        simp [Except.map, eq_comm]

/-- A node behind the one that leads to it. -/
def turnedNodes : List Value :=
  [.object [("id", .text "b")],
   .object [("id", .text "a"), ("connections", .object
     [("main", .list [.list [.object [("node", .text "b")]]])])]]

/-- The edge is lost behind one index, and with it the order. -/
theorem wrapped_keeps_order_iff_turnedNodes :
    TextIds turnedNodes ∧ (∀ node ∈ turnedNodes, Nested node) ∧
      positions (.list turnedNodes) = .ok [1, 0] ∧
      positions (.list (turnedNodes.map (reshapeNode wrapped))) = .ok [0, 1] ∧
      ¬ positions (.list (turnedNodes.map (reshapeNode wrapped))) =
        positions (.list turnedNodes) := by
  have identified : TextIds turnedNodes :=
    ⟨["b", "a"], by cbv, by decide, by decide⟩
  have nested : ∀ node ∈ turnedNodes, Nested node := by
    refine List.forall_mem_cons.mpr
      ⟨⟨[], rfl, by simp⟩, List.forall_mem_singleton.mpr
      ⟨[("main", [[.object [("node", .text "b")]]])], rfl, ?_⟩⟩
    simp only [List.forall_mem_singleton]
    exact ⟨"b", .field rfl⟩
  have placesAre : positions (.list turnedNodes) = .ok [1, 0] := by
    cbv
  obtain ⟨_, wrappedIs, keepsIff, _⟩ :=
    wrapped_keeps_order_iff identified nested
  refine ⟨identified, nested, placesAre, ?_, fun keeps => ?_⟩
  · rw [wrappedIs, placesAre]
    rfl
  · exact absurd (keepsIff.mp keeps _ placesAre) (by decide)

end Orders

end Flowgen.ExecutionOrder
