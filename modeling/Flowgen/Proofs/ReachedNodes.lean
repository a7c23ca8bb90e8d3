import Flowgen.Proofs.Routes

namespace Flowgen.ExecutionOrder

/-!
# Which nodes are reached

Where ids are texts, the nodes that come first in the order are exactly those
that edges lead to from the start set, each behind a node that leads to it.
The nodes that are not reached come after them, as they stood.
-/

variable {nodes : List Value} {id : String}

/--
What a node leads on to, in the order of its connections; nothing if it has no
links.
-/
def targetsOf (node : Value) : List Value :=
  match linksOf node with
  | .ok links => links.filterMap Link.target?
  | .error _ => []

theorem targets_eq_ok
    {step : Step}
    {next : List Value} :
    targets step = .ok next ↔
      (∃ links, linksOf step.node = .ok links) ∧
      targetsOf step.node = next := by
  simp only [targets, bind_eq_ok, pure_eq_ok, targetsOf]
  cases linksOf step.node with
  | error fault =>
      simp
  | ok links =>
      simp

theorem leadsTo_iff_mem_targetsOf
    {node : Value}
    (notEmpty : id ≠ "") :
    LeadsTo node id ↔ .text id ∈ targetsOf node := by
  cases found : linksOf node with
  | ok links =>
      rw [targetsOf, found]
      exact leadsTo_iff_mem_targets found notEmpty
  | error fault =>
      simp only [targetsOf, found, List.not_mem_nil, iff_false]
      -- connections that lead somewhere can be read
      rintro ⟨outputs, _, _, _, _, connected, _⟩
      have readable : linksOf node = .ok (linksIn outputs) := by
        refine linksOf_eq_ok.mpr
          ⟨?_, outputs, by rw [connected, Option.getD_some], rfl⟩
        cases node <;> simp_all [Value.field?, Value.kind]
      rw [found] at readable
      cases readable

/-- Going on from a node to the id of a node is an edge. -/
theorem TextIds.edge_of_target
    (identified : TextIds nodes)
    {source target : Value}
    (sourceMember : source ∈ nodes)
    (targetMember : target ∈ nodes)
    {place : Nat}
    (isId : textId? target = some id)
    (leads : (targetsOf source)[place]? = some (.text id)) :
    Edge nodes source target := by
  obtain ⟨other, isOther, notEmpty⟩ := identified.exists_id targetMember
  rw [isId] at isOther
  cases isOther
  exact ⟨sourceMember, targetMember, id, isId,
    (leadsTo_iff_mem_targetsOf notEmpty).mpr (List.mem_of_getElem? leads)⟩

theorem TextIds.target_of_edge
    (identified : TextIds nodes)
    {source target : Value}
    (edge : Edge nodes source target) :
    ∃ (place : Nat) (id : String),
      textId? target = some id ∧
      (targetsOf source)[place]? = some (.text id) := by
  obtain ⟨_, targetMember, id, isId, leads⟩ := edge
  obtain ⟨other, isOther, notEmpty⟩ := identified.exists_id targetMember
  rw [isId] at isOther
  cases isOther
  obtain ⟨place, found⟩ :=
    List.mem_iff_getElem?.mp ((leadsTo_iff_mem_targetsOf notEmpty).mp leads)
  exact ⟨place, id, isId, found⟩

theorem isTruthy_of_textId?
    {node : Value}
    (isId : textId? node = some id) :
    node.isTruthy = true := by
  cases node with
  | object fields =>
      cases fields with
      | nil =>
          simp [textId?, Value.field?, Fields.get?] at isId
      | cons field fields =>
          simp [Value.isTruthy]
  | _ =>
      simp [textId?, Value.field?] at isId

/-- Where ids are different texts, every key of a node stands for that node. -/
theorem Numbered.standsFor
    {steps : List Step}
    (numbered : Numbered 0 nodes steps)
    (identified : TextIds nodes)
    {step : Step}
    (member : step ∈ steps) :
    StandsFor steps step.key step := by
  have isNode : step.node ∈ nodes := by
    rw [← numbered.nodesOfSteps]
    exact List.mem_map_of_mem member
  obtain ⟨id, isId, _⟩ := identified.exists_id isNode
  refine ⟨?_, isTruthy_of_textId? isId⟩
  cases found : lookup steps step.key with
  | none =>
      have notFound :=
        List.find?_eq_none.mp found step (List.mem_reverse.mpr member)
      simp at notFound
  | some other =>
      obtain ⟨otherMember, sameKey⟩ := lookup_mem found
      have distinct := numbered.keys_nodup identified.distinctIds
      rw [List.inj_on_of_nodup_map distinct otherMember member sameKey]

/-- What is known of a run that ordered nodes whose ids are texts. -/
structure Exploration
    (nodes : List Value)
    (steps chosen : List Step)
    (entries : List Found) : Prop where
  identified : TextIds nodes
  numbered : Numbered 0 nodes steps
  chosenInOrder : chosen.Sublist steps
  chosenIff : ∀ step ∈ steps, step ∈ chosen ↔ Starts nodes step.node
  explores :
    Explores steps (chosen.map fun step => ([step.position], idOf step.node)) []
      entries
  mem_steps : ∀ entry ∈ entries, entry.2 ∈ steps
  reachedOnce : (entries.map Prod.snd).Nodup

/--
The positions of some of the nodes, in order, are routes that turn off one
after the other.
-/
theorem chosen_turns
    {steps chosen : List Step}
    (numbered : Numbered 0 nodes steps)
    (inOrder : chosen.Sublist steps) :
    (chosen.map fun step => ([step.position], idOf step.node)).Pairwise
      fun first second => TurnsBefore first.1 second.1 := by
  have increasing : (steps.map Step.position).Pairwise (· < ·) := by
    rw [numbered.positionsOfSteps]
    exact List.pairwise_lt_range'
  rw [List.pairwise_map]
  exact ((List.pairwise_map.mp increasing).sublist inOrder).imp fun smaller =>
    Or.inl smaller

/--
A run that orders nodes whose ids are texts explores them from the start set.
-/
theorem ordered_explores
    {nodes result : List Value}
    (identified : TextIds nodes)
    (returned : ordered (.list nodes) = .ok result) :
    ∃ steps chosen entries marked,
      Exploration nodes steps chosen entries ∧
        (∀ key, key ∈ marked ↔ ∃ entry ∈ entries, entry.2.key = key) ∧
        result = (inOrder steps (entries.map Prod.snd) marked).map
          Step.node := by
  obtain ⟨steps, ids, reached, marked, order, _, rfl⟩ := ordered_eq_ok returned
  obtain ⟨chosen, chosenAre, rfl⟩ := startIds_eq_ok order.starting
  obtain ⟨sublist, iff⟩ := starts_eq_ok order.numbered identified chosenAre
  obtain ⟨entries, rfl, explores⟩ :=
    order.walking.explores (by rw [List.map_map]; rfl)
      (chosen_turns order.numbered sublist)
  refine ⟨steps, chosen, entries, marked, ?_, ?_, rfl⟩
  · refine ⟨identified, order.numbered, sublist, iff, explores, ?_, ?_⟩
    · intro entry member
      exact (order.walking.standsFor_of_mem
        (List.mem_map_of_mem member)).mem_and_key.1
    · exact order.walking.keys_nodup.of_map
  · intro key
    rw [order.walking.mem_after_iff]
    simp [List.mem_map]

namespace Exploration

variable {step : Step} {entry : Found} {id : String}

variable {nodes : List Value} {steps chosen : List Step} {entries : List Found}

theorem node_mem
    (exploration : Exploration nodes steps chosen entries)
    (member : step ∈ steps) :
    step.node ∈ nodes := by
  rw [← exploration.numbered.nodesOfSteps]
  exact List.mem_map_of_mem member

theorem found_mem
    (exploration : Exploration nodes steps chosen entries)
    (isFound : entry ∈ entries) :
    entry.2.node ∈ nodes :=
  exploration.node_mem (exploration.mem_steps entry isFound)

theorem exists_step
    (exploration : Exploration nodes steps chosen entries)
    {node : Value}
    (member : node ∈ nodes) :
    ∃ step ∈ steps, step.node = node := by
  rw [← exploration.numbered.nodesOfSteps] at member
  exact List.mem_map.mp member

theorem key_eq
    (exploration : Exploration nodes steps chosen entries)
    (member : step ∈ steps)
    (isId : textId? step.node = some id) :
    step.key = .text id := by
  have keyed := exploration.numbered.idKey?_node member
  rw [idKey?_of_textId? isId] at keyed
  exact (Option.some.inj keyed).symm

theorem standsFor
    (exploration : Exploration nodes steps chosen entries)
    (member : step ∈ steps) :
    StandsFor steps step.key step :=
  exploration.numbered.standsFor exploration.identified member

/--
A target that has been seen to and names a node has had that node reached.
-/
theorem found_of_seenTo
    (exploration : Exploration nodes steps chosen entries)
    {route : Route}
    (seen : SeenTo steps [] entries route (.text id))
    (member : step ∈ steps)
    (isId : textId? step.node = some id) :
    ∃ entry ∈ entries, entry.2 = step ∧ entry.1 ≤ route := by
  obtain ⟨key, keyed, found⟩ := seen
  cases keyed
  have stands := exploration.standsFor member
  rw [exploration.key_eq member isId] at stands
  simpa using found step stands

/-- A start node is reached, no later than by its own position. -/
theorem start_found
    (exploration : Exploration nodes steps chosen entries)
    (member : step ∈ steps)
    (starts : Starts nodes step.node) :
    ∃ entry ∈ entries, entry.2 = step ∧ entry.1 ≤ [step.position] := by
  have isChosen := (exploration.chosenIff step member).mpr starts
  obtain ⟨id, isId, _⟩ :=
    exploration.identified.exists_id (exploration.node_mem member)
  have idIs : idOf step.node = .text id :=
    Value.key?_eq_text.mp (idKey?_of_textId? isId)
  have seen := exploration.explores.covers _
    (List.mem_map_of_mem (f := fun step => ([step.position], idOf step.node))
      isChosen)
  simp only [idIs] at seen
  exact exploration.found_of_seenTo seen member isId

/--
Where a reached node leads on to is reached too, no later than from there.
-/
theorem target_found
    (exploration : Exploration nodes steps chosen entries)
    (isFound : entry ∈ entries)
    {place : Nat}
    (leads : (targetsOf entry.2.node)[place]? = some (.text id))
    (member : step ∈ steps)
    (isId : textId? step.node = some id) :
    ∃ other ∈ entries, other.2 = step ∧ other.1 ≤ entry.1 ++ [place] := by
  obtain ⟨next, targetsAre, seen⟩ := exploration.explores.closed entry isFound
  rw [(targets_eq_ok.mp targetsAre).2] at leads
  exact exploration.found_of_seenTo (seen place _ leads) member isId

/--
A reached node is a start node, or a reached node leads on to it by its route.
-/
theorem origin
    (exploration : Exploration nodes steps chosen entries)
    (isFound : entry ∈ entries) :
    (Starts nodes entry.2.node ∧ entry.1 = [entry.2.position]) ∨
      ∃ source ∈ entries, ∃ place id,
        textId? entry.2.node = some id ∧
          (targetsOf source.2.node)[place]? = some (.text id) ∧
          entry.1 = source.1 ++ [place] := by
  have member := exploration.mem_steps entry isFound
  obtain ⟨id, isId, _⟩ :=
    exploration.identified.exists_id (exploration.node_mem member)
  have keyIs := exploration.key_eq member isId
  rcases exploration.explores.origin entry isFound with
    ⟨target, isPending, keyed⟩ | ⟨source, sourceFound, next, place, target,
      targetsAre, leads, keyed, routeIs⟩
  · obtain ⟨start, isChosen, same⟩ := List.mem_map.mp isPending
    have startMember := exploration.chosenInOrder.subset isChosen
    -- the start node has the key of the reached one, so it is the same
    have sameKey : some start.key = some entry.2.key := by
      rw [← keyed, ← exploration.numbered.idKey?_node startMember,
        ← (Prod.mk.inj same).2]
      rfl
    have startIs : start = entry.2 :=
      List.inj_on_of_nodup_map
        (exploration.numbered.keys_nodup exploration.identified.distinctIds)
        startMember member (Option.some.inj sameKey)
    subst startIs
    exact Or.inl ⟨(exploration.chosenIff _ startMember).mp isChosen,
      (Prod.mk.inj same).1.symm⟩
  · rw [keyIs, Value.key?_eq_text] at keyed
    subst keyed
    rw [← (targets_eq_ok.mp targetsAre).2] at leads
    exact Or.inr ⟨source, sourceFound, place, id, isId, leads, routeIs⟩

/--
The nodes that are reached are those that are reachable from the start set.
-/
theorem found_iff_reachable
    (exploration : Exploration nodes steps chosen entries)
    {node : Value} :
    (∃ entry ∈ entries, entry.2.node = node) ↔ Reachable nodes node := by
  constructor
  · rintro ⟨entry, isFound, rfl⟩
    -- the route to the source of a node is shorter than the one to the node
    induction size :
      entry.1.length using Nat.strong_induction_on generalizing entry with
    | _ length inductionHypothesis =>
        rcases exploration.origin isFound with
          ⟨starts, _⟩ | ⟨source, sourceFound, place, id, isId, leads, routeIs⟩
        · exact ⟨entry.2.node, starts, .refl⟩
        · have shorter : source.1.length < length := by
            rw [← size, routeIs]
            simp
          obtain ⟨start, starts, path⟩ :=
            inductionHypothesis source.1.length shorter source sourceFound rfl
          exact ⟨start, starts, path.tail
            (exploration.identified.edge_of_target
              (exploration.found_mem sourceFound)
              (exploration.found_mem isFound) isId leads)⟩
  · rintro ⟨start, starts, path⟩
    induction path with
    | refl =>
        have isNode : start ∈ nodes := by
          rcases starts with ⟨isNode, _⟩ | ⟨_, isHead⟩
          · exact isNode
          · exact List.mem_of_head? isHead
        obtain ⟨step, member, rfl⟩ := exploration.exists_step isNode
        obtain ⟨entry, isFound, rfl, _⟩ := exploration.start_found member starts
        exact ⟨entry, isFound, rfl⟩
    | tail _ edge inductionHypothesis =>
        obtain ⟨entry, isFound, rfl⟩ := inductionHypothesis
        obtain ⟨place, id, isId, leads⟩ :=
          exploration.identified.target_of_edge edge
        obtain ⟨step, member, rfl⟩ := exploration.exists_step edge.2.1
        obtain ⟨next, nextFound, rfl, _⟩ :=
          exploration.target_found isFound leads member isId
        exact ⟨next, nextFound, rfl⟩

/--
A reached node outside the start set stands behind a node that leads to it.
-/
theorem source_before
    (exploration : Exploration nodes steps chosen entries)
    (isFound : entry ∈ entries)
    (noStart : ¬ Starts nodes entry.2.node) :
    ∃ source ∈ entries,
      Edge nodes source.2.node entry.2.node ∧
      [source, entry].Sublist entries := by
  rcases exploration.origin isFound with
    ⟨starts, _⟩ | ⟨source, sourceFound, place, id, isId, leads, routeIs⟩
  · exact absurd starts noStart
  · refine ⟨source, sourceFound, ?_, ?_⟩
    · exact exploration.identified.edge_of_target
        (exploration.found_mem sourceFound)
        (exploration.found_mem isFound) isId leads
    · apply exploration.explores.pair_sublist sourceFound isFound
      rw [routeIs]
      exact route_lt_append source.1 place []

theorem mem_rest_iff
    (exploration : Exploration nodes steps chosen entries)
    {marked : List Key}
    (markedIff : ∀ key, key ∈ marked ↔ ∃ entry ∈ entries, entry.2.key = key)
    {node : Value} :
    node ∈ (steps.filter fun step => !marked.contains step.key).map Step.node ↔
      node ∈ nodes ∧ node ∉ entries.map fun entry => entry.2.node := by
  simp only [List.mem_map, List.mem_filter, Bool.not_eq_true',
    ← Bool.not_eq_true, List.contains_iff_mem, markedIff, not_exists, not_and]
  constructor
  · rintro ⟨step, ⟨member, unmarked⟩, rfl⟩
    refine ⟨exploration.node_mem member, fun entry isFound same => ?_⟩
    apply unmarked entry isFound
    rw [exploration.identified.step_eq_of_node exploration.numbered
      (exploration.mem_steps entry isFound) member same]
  · rintro ⟨isNode, notReached⟩
    obtain ⟨step, member, rfl⟩ := exploration.exists_step isNode
    refine ⟨step, ⟨member, fun entry isFound sameKey => ?_⟩, rfl⟩
    apply notReached entry isFound
    rw [List.inj_on_of_nodup_map
      (exploration.numbered.keys_nodup exploration.identified.distinctIds)
      (exploration.mem_steps entry isFound) member sameKey]

end Exploration

/-- Nodes in two parts: those reachable from the start set, and the rest. -/
structure SplitsInto (nodes reached rest : List Value) : Prop where
  /-- The first part holds exactly the reachable nodes. -/
  reachable : ∀ node, node ∈ reached ↔ Reachable nodes node
  /-- A node outside the start set stands behind one that leads to it. -/
  behindSource : ∀ node ∈ reached, ¬ Starts nodes node →
    ∃ source, Edge nodes source node ∧ [source, node].Sublist reached
  /-- The rest stands as it was given. -/
  restInOrder : rest.Sublist nodes
  /-- The rest is all that was not reached. -/
  remaining : ∀ node, node ∈ rest ↔ node ∈ nodes ∧ node ∉ reached

/--
The order of nodes whose ids are texts has two parts.  First come the nodes
that are reachable from the start set, each one outside of it behind a node
that leads to it.  Then come all others, in the order in which they were
given.
-/
theorem ordered_splits
    {nodes result : List Value}
    (identified : TextIds nodes)
    (returned : ordered (.list nodes) = .ok result) :
    ∃ reached rest,
      result = reached ++ rest ∧ result.Nodup ∧
      SplitsInto nodes reached rest := by
  have rearranged := (ordered_perm identified.distinctIds returned).1
  obtain ⟨steps, chosen, entries, marked, exploration, markedIff, rfl⟩ :=
    ordered_explores identified returned
  refine ⟨entries.map fun entry => entry.2.node,
    (steps.filter fun step => !marked.contains step.key).map Step.node,
    ?_, ?_, ?_, ?_, ?_, ?_⟩
  · rw [inOrder, List.map_append, List.map_map]
    rfl
  · exact rearranged.nodup_iff.mpr identified.ids_nodup.of_map
  · intro node
    rw [List.mem_map, ← exploration.found_iff_reachable]
  · intro node member noStart
    obtain ⟨entry, isFound, rfl⟩ := List.mem_map.mp member
    obtain ⟨source, _, edge, inOrder⟩ :=
      exploration.source_before isFound noStart
    exact ⟨source.2.node, edge, inOrder.map fun found : Found => found.2.node⟩
  · rw [← exploration.numbered.nodesOfSteps]
    exact List.filter_sublist.map Step.node
  · intro node
    exact exploration.mem_rest_iff markedIff

/--
A start with an edge to a join, a typed start in a cycle, and a cycle that is
not reached.
-/
def scatteredNodes : List Value :=
  [.object [("id", .text "x"),
    ("connections", .object [("main", .list [.list [.text "y"]])])],
   .object [("id", .text "y"),
     ("connections", .object [("main", .list [.list [.text "x"]])])],
   .object [("id", .text "a"),
     ("connections", .object [("main",
       .list [.list [.object [("node", .text "b")]]])])],
   .object [("id", .text "b"), ("type", .text "n8n-nodes-base.start"),
     ("connections", .object [("main",
       .object [("0", .list [.text "c", .text "b"])])])],
   .object [("id", .text "c")]]

theorem ordered_splits_scatteredNodes :
    TextIds scatteredNodes ∧
      ∃ result,
        ordered (.list scatteredNodes) = .ok result ∧
          ∃ reached rest,
            result = reached ++ rest ∧ result.Nodup ∧
            SplitsInto scatteredNodes reached rest := by
  have identified : TextIds scatteredNodes :=
    ⟨["x", "y", "a", "b", "c"], by cbv, by decide, by decide⟩
  have returned : ordered (.list scatteredNodes) =
      .ok ([2, 3, 4, 0, 1].filterMap fun place => scatteredNodes[place]?) := by
    cbv
  exact ⟨identified, _, returned, ordered_splits identified returned⟩

end Flowgen.ExecutionOrder
