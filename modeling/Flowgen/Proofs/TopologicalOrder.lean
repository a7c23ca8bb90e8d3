import Flowgen.Proofs.Readable
import Mathlib.Data.Set.Finite.List
import Mathlib.Order.WellFounded

namespace Flowgen.ExecutionOrder

/-!
# When the order is topological

In a graph without cycles every node is reached, on the least of the routes to
it.  So the order puts sources before targets exactly if every route to the
target of an edge comes after a route to its source.  A join of two ways does
not have this property, and there the order is not topological.
-/

/-- No node leads to itself, directly or through others. -/
def Acyclic (nodes : List Value) : Prop :=
  ∀ node, ¬ Relation.TransGen (Edge nodes) node node

/-- Every source of an edge stands before its target. -/
def Topological (nodes result : List Value) : Prop :=
  ∀ source target, Edge nodes source target → [source, target].Sublist result

/--
A route leads to a node: from a start node by its position, then along links.
-/
inductive RouteTo (nodes : List Value) : Route → Value → Prop where
  | start
      {place : Nat}
      {node : Value} :
      nodes[place]? = some node →
      Starts nodes node →
      RouteTo nodes [place] node
  | along
      {route : Route}
      {source target : Value}
      {place : Nat}
      {id : String} :
      RouteTo nodes route source →
      (targetsOf source)[place]? = some (.text id) →
      target ∈ nodes →
      textId? target = some id →
      RouteTo nodes (route ++ [place]) target

/--
Every route to the target of an edge comes after some route to its source.
-/
def SourcesFirst (nodes : List Value) : Prop :=
  ∀ source target, Edge nodes source target →
    ∀ route, RouteTo nodes route target →
      ∃ earlier, RouteTo nodes earlier source ∧ earlier < route

section Graphs

variable {nodes : List Value}

/-- A graph has no cycles if its edges go up in some rank. -/
theorem acyclic_of_rank
    (rank : Value → Nat)
    (rises : ∀ source target, Edge nodes source target →
      rank source < rank target) :
    Acyclic nodes := by
  have risesAlong : ∀ {source target},
      Relation.TransGen (Edge nodes) source target →
      rank source < rank target := by
    intro source target path
    induction path with
    | single edge =>
        exact rises _ _ edge
    | tail _ edge inductionHypothesis =>
        exact inductionHypothesis.trans (rises _ _ edge)
  intro node cycle
  exact lt_irrefl _ (risesAlong cycle)

/-- Without cycles one cannot go back along edges forever. -/
theorem Acyclic.wellFounded
    (acyclic : Acyclic nodes) :
    WellFounded fun first second : { node // node ∈ nodes } =>
      Relation.TransGen (Edge nodes) first.1 second.1 := by
  have : Finite { node // node ∈ nodes } := (List.finite_toSet nodes).to_subtype
  have : IsTrans { node // node ∈ nodes } fun first second =>
      Relation.TransGen (Edge nodes) first.1 second.1 :=
    ⟨fun _ _ _ firstPath secondPath => firstPath.trans secondPath⟩
  have : Std.Irrefl fun first second : { node // node ∈ nodes } =>
      Relation.TransGen (Edge nodes) first.1 second.1 :=
    ⟨fun node cycle => acyclic node.1 cycle⟩
  exact Finite.wellFounded_of_trans_of_irrefl _

/-- Without cycles some node on the way to each node starts by itself. -/
theorem Acyclic.exists_start
    (acyclic : Acyclic nodes)
    {node : Value}
    (member : node ∈ nodes) :
    ∃ start, StartsByItself nodes start ∧
    Relation.ReflTransGen (Edge nodes) start node := by
  have all : ∀ node : { node // node ∈ nodes },
      ∃ start, StartsByItself nodes start ∧
      Relation.ReflTransGen (Edge nodes) start node.1 := by
    intro node
    induction node using acyclic.wellFounded.induction with
    | _ node inductionHypothesis =>
        by_cases hasSource : ∃ source, Edge nodes source node.1
        · obtain ⟨source, edge⟩ := hasSource
          obtain ⟨start, starts, path⟩ :=
            inductionHypothesis ⟨source, edge.1⟩ (.single edge)
          exact ⟨start, starts, path.tail edge⟩
        · exact ⟨node.1, ⟨node.2, Or.inr (not_exists.mp hasSource)⟩, .refl⟩
  exact all ⟨node, member⟩

/-- Without cycles every node is reachable from the start set. -/
theorem Acyclic.reachable
    (acyclic : Acyclic nodes)
    {node : Value}
    (member : node ∈ nodes) :
    Reachable nodes node := by
  obtain ⟨start, starts, path⟩ := acyclic.exists_start member
  exact ⟨start, Or.inl starts, path⟩

end Graphs

namespace RouteTo

variable {nodes : List Value} {route : Route} {node : Value}

theorem ne_nil
    (leads : RouteTo nodes route node) :
    route ≠ [] := by
  cases leads <;> simp

theorem mem
    (leads : RouteTo nodes route node) :
    node ∈ nodes := by
  cases leads with
  | start found _ =>
      exact List.mem_of_getElem? found
  | along _ _ isNode _ =>
      exact isNode

theorem getElem?_of_singleton
    {place : Nat}
    (leads : RouteTo nodes [place] node) :
    nodes[place]? = some node := by
  generalize routeIs : [place] = route at leads
  cases leads with
  | start found _ =>
      cases routeIs
      exact found
  | along before _ _ _ =>
      rcases List.append_eq_singleton_iff.mp routeIs.symm with
        ⟨isNil, _⟩ | ⟨_, impossible⟩
      · exact absurd isNil before.ne_nil
      · cases impossible

theorem source_of_append
    {place : Nat}
    (notNil : route ≠ [])
    (leads : RouteTo nodes (route ++ [place]) node) :
    ∃ source id,
      RouteTo nodes route source ∧
        (targetsOf source)[place]? = some (.text id) ∧
        textId? node = some id := by
  generalize routeIs : route ++ [place] = whole at leads
  cases leads with
  | start _ _ =>
      rcases List.append_eq_singleton_iff.mp routeIs with
        ⟨isNil, _⟩ | ⟨_, impossible⟩
      · exact absurd isNil notNil
      · cases impossible
  | along before found _ isId =>
      obtain ⟨rfl, same⟩ := List.append_inj' routeIs rfl
      cases same
      exact ⟨_, _, before, found, isId⟩

theorem unique
    (identified : TextIds nodes)
    {other : Value}
    (leads : RouteTo nodes route node)
    (leadsToo : RouteTo nodes route other) :
    node = other := by
  induction leads generalizing other with
  | start found _ =>
      exact Option.some.inj (found.symm.trans leadsToo.getElem?_of_singleton)
  | along before found isNode isId inductionHypothesis =>
      obtain ⟨source, id, beforeToo, foundToo, isIdToo⟩ :=
        leadsToo.source_of_append before.ne_nil
      cases inductionHypothesis beforeToo
      rw [found] at foundToo
      cases foundToo
      exact identified.eq_of_textId? isNode leadsToo.mem
        (isId.trans isIdToo.symm)

/-- A route that goes on from a node leads along edges from it. -/
theorem path_of_append
    (identified : TextIds nodes)
    {next : Nat}
    {rest : Route}
    {other : Value}
    (leads : RouteTo nodes route node)
    (leadsOn : RouteTo nodes (route ++ next :: rest) other) :
    Relation.TransGen (Edge nodes) node other := by
  induction rest using List.reverseRecOn generalizing other with
  | nil =>
      obtain ⟨source, id, before, found, isId⟩ :=
        leadsOn.source_of_append leads.ne_nil
      cases leads.unique identified before
      exact .single (identified.edge_of_target leads.mem leadsOn.mem isId found)
  | append_singleton rest last inductionHypothesis =>
      rw [← List.cons_append, ← List.append_assoc] at leadsOn
      obtain ⟨source, id, before, found, isId⟩ :=
        leadsOn.source_of_append (by simp)
      exact (inductionHypothesis before).tail
        (identified.edge_of_target before.mem leadsOn.mem isId found)

end RouteTo

namespace Exploration

variable {nodes : List Value} {steps chosen : List Step} {entries : List Found}

theorem routeTo
    (exploration : Exploration nodes steps chosen entries)
    {entry : Found}
    (isFound : entry ∈ entries) :
    RouteTo nodes entry.1 entry.2.node := by
  induction size :
    entry.1.length using Nat.strong_induction_on generalizing entry with
  | _ length inductionHypothesis =>
      rcases exploration.origin isFound with
        ⟨starts, routeIs⟩ | ⟨source, sourceFound, place, id, isId, leads,
          routeIs⟩
      · rw [routeIs]
        exact .start (exploration.numbered.getElem?_position
          (exploration.mem_steps entry isFound)) starts
      · have shorter : source.1.length < length := by
          rw [← size, routeIs]
          simp
        rw [routeIs]
        exact .along (inductionHypothesis source.1.length shorter sourceFound
          rfl) leads (exploration.found_mem isFound) isId

/-- Without cycles a node is reached on the least of the routes to it. -/
theorem found_by_least
    (exploration : Exploration nodes steps chosen entries)
    (acyclic : Acyclic nodes)
    {route : Route}
    {node : Value}
    (leads : RouteTo nodes route node) :
    ∃ entry ∈ entries, entry.2.node = node ∧ entry.1 ≤ route := by
  induction leads with
  | @start place node found starts =>
      obtain ⟨step, member, rfl⟩ :=
        exploration.exists_step (List.mem_of_getElem? found)
      obtain ⟨entry, isFound, rfl, before⟩ :=
        exploration.start_found member starts
      have positionIs : entry.2.position = place := by
        have positions : nodes[entry.2.position]? = nodes[place]? := by
          rw [found, exploration.numbered.getElem?_position member]
        have inside := (List.getElem?_eq_some_iff.mp found).1
        exact ((List.getElem?_inj inside
          exploration.identified.ids_nodup.of_map).mp positions.symm).symm
      exact ⟨entry, isFound, rfl, positionIs ▸ before⟩
  | @along route source target place id before found isNode isId
      inductionHypothesis =>
      obtain ⟨entry, isFound, rfl, notLater⟩ := inductionHypothesis
      obtain ⟨step, member, rfl⟩ := exploration.exists_step isNode
      obtain ⟨next, nextFound, rfl, nextNotLater⟩ :=
        exploration.target_found isFound found member isId
      refine ⟨next, nextFound, rfl, nextNotLater.trans ?_⟩
      rcases notLater.eq_or_lt with same | earlier
      · rw [same]
      · rcases route_lt_iff.mp earlier with ⟨turn, rest, routeIs⟩ | turns
        · -- a route that goes on to the same node would be a cycle
          have leadsOn := routeIs ▸ before
          exact absurd
            ((exploration.routeTo isFound).path_of_append exploration.identified
              leadsOn)
            (acyclic _)
        · exact (turns.append [place] [place]).lt.le

/-- Without cycles nothing is left over after the nodes that are reached. -/
theorem rest_eq_nil
    (exploration : Exploration nodes steps chosen entries)
    (acyclic : Acyclic nodes)
    {marked : List Key}
    (markedIff : ∀ key, key ∈ marked ↔ ∃ entry ∈ entries, entry.2.key = key) :
    (steps.filter fun step => !marked.contains step.key) = [] := by
  rw [← List.map_eq_nil_iff (f := Step.node), List.eq_nil_iff_forall_not_mem]
  intro node isLeft
  obtain ⟨isNode, notReached⟩ := (exploration.mem_rest_iff markedIff).mp isLeft
  apply notReached
  rw [List.mem_map]
  exact exploration.found_iff_reachable.mpr (acyclic.reachable isNode)

/--
Without cycles the reached nodes are in topological order if sources come
first.
-/
theorem topological_iff
    (exploration : Exploration nodes steps chosen entries)
    (acyclic : Acyclic nodes) :
    Topological nodes (entries.map fun entry => entry.2.node) ↔
    SourcesFirst nodes := by
  constructor
  · intro topological source target edge route leads
    obtain ⟨second, secondFound, rfl, notLater⟩ :=
      exploration.found_by_least acyclic leads
    obtain ⟨pair, inOrder, pairIs⟩ :=
      List.sublist_map_iff.mp (topological source second.2.node edge)
    obtain ⟨first, tail, rfl, rfl, tailIs⟩ :=
      List.map_eq_cons_iff.mp pairIs.symm
    obtain ⟨other, _, rfl, sameNode, nilIs⟩ := List.map_eq_cons_iff.mp tailIs
    cases List.map_eq_nil_iff.mp nilIs
    have firstFound : first ∈ entries := inOrder.subset (by simp)
    have otherFound : other ∈ entries := inOrder.subset (by simp)
    have earlier : first.1 < other.1 :=
      List.pairwise_iff_forall_sublist.mp exploration.explores.sorted inOrder
    -- the node is reached only once, so the pair ends with the least route to
    -- it
    have otherIs : other = second := by
      apply List.inj_on_of_nodup_map exploration.reachedOnce otherFound
        secondFound
      exact exploration.identified.step_eq_of_node exploration.numbered
        (exploration.mem_steps other otherFound)
          (exploration.mem_steps second secondFound)
        sameNode
    rw [otherIs] at earlier
    exact ⟨first.1, exploration.routeTo firstFound, earlier.trans_le notLater⟩
  · intro sourcesFirst source target edge
    obtain ⟨second, secondFound, rfl⟩ :=
      exploration.found_iff_reachable.mpr (acyclic.reachable edge.2.1)
    obtain ⟨route, leads, earlier⟩ :=
      sourcesFirst source second.2.node edge second.1
        (exploration.routeTo secondFound)
    obtain ⟨first, firstFound, rfl, notLater⟩ :=
      exploration.found_by_least acyclic leads
    exact (exploration.explores.pair_sublist firstFound secondFound
      (notLater.trans_lt earlier)).map fun found : Found => found.2.node

end Exploration

/--
Sources come first where at most one node leads to each node, and no node that
another one leads to is a start by its type.
-/
theorem Acyclic.sourcesFirst
    {nodes : List Value}
    (acyclic : Acyclic nodes)
    (identified : TextIds nodes)
    (oneSource : ∀ first second target,
      Edge nodes first target → Edge nodes second target → first = second)
    (notTyped : ∀ source target, Edge nodes source target →
      ¬ StartTyped target) :
    SourcesFirst nodes := by
  intro source target edge route leads
  cases leads with
  | start found starts =>
      obtain ⟨start, startsItself, _⟩ := acyclic.exists_start edge.2.1
      rcases starts with ⟨_, typed | noSource⟩ | ⟨noneStarts, _⟩
      · exact absurd typed (notTyped source target edge)
      · exact absurd edge (noSource source)
      · exact absurd startsItself (noneStarts start)
  | @along route other _ place id before found isNode isId =>
      have otherEdge := identified.edge_of_target before.mem isNode isId found
      cases oneSource other source target otherEdge edge
      exact ⟨route, before, route_lt_append route place []⟩

/--
Nodes without cycles are ordered if and only if all of them can be read, and the
order is topological if and only if every route to the target of an edge comes
after some route to its source.
-/
theorem ordered_topological_iff
    {nodes : List Value}
    (identified : TextIds nodes)
    (acyclic : Acyclic nodes) :
    ((∃ result, ordered (.list nodes) = .ok result) ↔
      ∀ node ∈ nodes, Readable node) ∧
      ∀ result, ordered (.list nodes) = .ok result →
        (Topological nodes result ↔ SourcesFirst nodes) := by
  refine ⟨⟨?_, exists_ordered identified⟩, ?_⟩
  · rintro ⟨result, returned⟩ node member
    exact readable_of_ordered identified returned (acyclic.reachable member)
  · intro result returned
    obtain ⟨steps, chosen, entries, marked, exploration, markedIff, rfl⟩ :=
      ordered_explores identified returned
    rw [inOrder, exploration.rest_eq_nil acyclic markedIff, List.append_nil,
      List.map_map]
    exact exploration.topological_iff acyclic

/-- A node that leads to another one both by itself and through a third. -/
def joinedNodes : List Value :=
  [.object [("id", .text "a"), ("connections", .object
     [("main", .list [.list [.object [("node", .text "c")],
       .object [("node", .text "b")]]])])],
   .object [("id", .text "b"), ("connections", .object
     [("main", .list [.list [.object [("node", .text "c")]]])])],
   .object [("id", .text "c")]]

theorem ordered_topological_iff_joinedNodes :
    TextIds joinedNodes ∧ Acyclic joinedNodes ∧
      ∃ result,
        ordered (.list joinedNodes) = .ok result ∧
          result.map textId? = [some "a", some "c", some "b"] ∧
          ¬ Topological joinedNodes result ∧
          ¬ SourcesFirst joinedNodes := by
  have identified : TextIds joinedNodes :=
    ⟨["a", "b", "c"], by cbv, by decide, by decide⟩
  have leadOn : joinedNodes.map (fun node => (textId? node, targetsOf node)) =
      [(some "a", [.text "c", .text "b"]), (some "b", [.text "c"]),
        (some "c", [])] := by
    cbv
  have acyclic : Acyclic joinedNodes := by
    apply acyclic_of_rank fun node =>
      [some "a", some "b", some "c"].idxOf (textId? node)
    intro source target edge
    obtain ⟨place, id, isId, leads⟩ := identified.target_of_edge edge
    have isTarget := List.mem_of_getElem? leads
    have member := List.mem_map_of_mem
      (f := fun node => (textId? node, targetsOf node)) edge.1
    rw [leadOn] at member
    simp only [List.mem_cons, Prod.mk.injEq, List.not_mem_nil, or_false]
      at member
    rw [isId]
    rcases member with ⟨sourceIs, targetsAre⟩ | ⟨sourceIs, targetsAre⟩ | ⟨_,
      targetsAre⟩
    · rw [targetsAre] at isTarget
      rcases List.mem_pair.mp isTarget with
        same | same <;> cases same <;> rw [sourceIs] <;> decide
    · rw [targetsAre] at isTarget
      cases List.mem_singleton.mp isTarget
      rw [sourceIs]
      decide
    · simp [targetsAre] at isTarget
  have returned : ordered (.list joinedNodes) =
      .ok ([0, 2, 1].filterMap fun place => joinedNodes[place]?) := by
    cbv
  have noTopological : ¬ Topological joinedNodes
      ([0, 2, 1].filterMap fun place => joinedNodes[place]?) := by
    intro topological
    have isId : textId? joinedNodes[2] = some "c" := by cbv
    have leads : (targetsOf joinedNodes[1])[0]? = some (.text "c") := by cbv
    have edge : Edge joinedNodes joinedNodes[1] joinedNodes[2] :=
      identified.edge_of_target (List.getElem_mem _) (List.getElem_mem _) isId
        leads
    have inOrder := (topological _ _ edge).map textId?
    have ids : [some "b", some "c"].Sublist [some "a", some "c", some "b"] :=
      inOrder
    exact absurd ids (by decide)
  refine ⟨identified, acyclic, _, returned, by cbv, noTopological, ?_⟩
  exact fun sourcesFirst => noTopological
    (((ordered_topological_iff identified acyclic).2 _ returned).mpr
      sourcesFirst)

end Flowgen.ExecutionOrder
