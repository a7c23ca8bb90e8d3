import Flowgen.ExecutionOrder
import Flowgen.Proofs.Computations
import Mathlib.Data.List.Nodup
import Mathlib.Data.List.Permutation

namespace Flowgen

/-!
# Walks and the nodes they reach

A walk that ends well is described by the steps it takes: it passes over a
target that is marked already or that stands for no node, and it visits every
other one.  Whatever holds of all walks is then proved step by step.
-/

namespace Value

theorem key_eq_ok
    {value : Value}
    {key : Key} :
    value.key = .ok key ↔ value.key? = some key := by
  unfold Value.key
  cases value.key? with
  | none =>
      simp
  | some other =>
      simp

end Value

namespace ExecutionOrder

/-- The id of a node; a node without one has nothing for an id. -/
def idOf (node : Value) : Value :=
  (node.field? "id").getD .null

/-- What a node is known by. -/
def idKey? (node : Value) : Option Key :=
  (idOf node).key?

/-- The ids of nodes can be compared and are pairwise different. -/
def DistinctIds (nodes : List Value) : Prop :=
  ∃ keys : List Key, nodes.map idKey? = keys.map some ∧ keys.Nodup

/-- Some nodes, numbered from a position on, with their keys. -/
structure Numbered
    (position : Nat)
    (nodes : List Value)
    (steps : List Step) : Prop where
  nodesOfSteps : steps.map Step.node = nodes
  positionsOfSteps : steps.map Step.position = List.range' position nodes.length
  keysOfSteps : nodes.map idKey? = (steps.map Step.key).map some

theorem stepsFrom_numbered
    {position : Nat}
    {nodes : List Value}
    {steps : List Step}
    (numbered : stepsFrom position nodes = .ok steps) :
    Numbered position nodes steps := by
  induction nodes generalizing position steps with
  | nil =>
      cases numbered
      exact ⟨rfl, rfl, rfl⟩
  | cons node nodes inductionHypothesis =>
      simp only [stepsFrom, bind_eq_ok, pure_eq_ok,
        Value.get_eq_ok, Value.key_eq_ok] at numbered
      obtain ⟨id, ⟨_, idFound⟩, key, keyFound, rest, restNumbered, rfl⟩ :=
        numbered
      have restFacts := inductionHypothesis restNumbered
      have nodeKey : idKey? node = some key := by
        rw [idKey?, idOf, idFound, keyFound]
      refine ⟨?_, ?_, ?_⟩
      · simp [restFacts.nodesOfSteps]
      · simp [restFacts.positionsOfSteps, List.range'_succ]
      · simp [restFacts.keysOfSteps, nodeKey]

namespace Numbered

variable {nodes : List Value} {steps : List Step}

theorem getElem?_position
    (numbered : Numbered 0 nodes steps)
    {step : Step}
    (member : step ∈ steps) :
    nodes[step.position]? = some step.node := by
  obtain ⟨place, inside, rfl⟩ := List.getElem_of_mem member
  have positionIs : steps[place].position = place := by
    have positions := numbered.positionsOfSteps
    have same : (steps.map Step.position)[place]? =
        (List.range' 0 nodes.length)[place]? := by
      rw [positions]
    have bound : place < nodes.length := by
      rw [← numbered.nodesOfSteps, List.length_map]
      exact inside
    simpa [inside, bound] using same
  rw [positionIs, ← numbered.nodesOfSteps]
  simp [inside]

theorem idKey?_node
    {position : Nat}
    (numbered : Numbered position nodes steps)
    {step : Step}
    (member : step ∈ steps) :
    idKey? step.node = some step.key := by
  have keys := numbered.keysOfSteps
  rw [← numbered.nodesOfSteps, List.map_map, List.map_map] at keys
  exact List.map_inj_left.mp keys step member

/--
Nodes with pairwise different ids are numbered with pairwise different keys.
-/
theorem keys_nodup
    {position : Nat}
    (numbered : Numbered position nodes steps)
    (distinct : DistinctIds nodes) :
    (steps.map Step.key).Nodup := by
  obtain ⟨keys, keysAre, noRepeats⟩ := distinct
  rw [numbered.keysOfSteps] at keysAre
  rwa [(List.map_inj_right fun _ _ => Option.some.inj).mp keysAre]

end Numbered

/-- A key stands for a node that can be visited: one that counts as true. -/
structure StandsFor
    (steps : List Step)
    (key : Key)
    (step : Step) : Prop where
  found : lookup steps key = some step
  truthy : step.node.isTruthy = true

namespace StandsFor

theorem mem_and_key
    {steps : List Step}
    {key : Key}
    {step : Step}
    (stands : StandsFor steps key step) :
    step ∈ steps ∧ step.key = key :=
  lookup_mem stands.found

theorem unique
    {steps : List Step}
    {key : Key}
    {first second : Step}
    (firstStands : StandsFor steps key first)
    (secondStands : StandsFor steps key second) :
    first = second :=
  Option.some.inj (firstStands.found.symm.trans secondStands.found)

end StandsFor

/--
The walks that end well: `Walks steps pending marked reached after` says that
the walk to the pending targets reaches these nodes and leaves these keys
marked.
-/
inductive Walks (steps : List Step) :
    List Value → List Key → List Step → List Key → Prop where
  | done {marked : List Key} :
      Walks steps [] marked [] marked
  | pass
      {target : Value}
      {rest : List Value}
      {marked after : List Key}
      {reached : List Step}
      {key : Key}
      (keyed : target.key? = some key)
      (passed : ∀ step, StandsFor steps key step → key ∈ marked) :
      Walks steps rest marked reached after →
      Walks steps (target :: rest) marked reached after
  | visit
      {target : Value}
      {rest next : List Value}
      {marked after : List Key}
      {reached : List Step}
      {step : Step}
      (keyed : target.key? = some step.key)
      (fresh : step.key ∉ marked)
      (stands : StandsFor steps step.key step)
      (leads : targets step = .ok next) :
      Walks steps (next ++ rest) (step.key :: marked) reached after →
      Walks steps (target :: rest) marked (step :: reached) after

/-- Every walk that ends well takes such steps. -/
theorem walks_of_walk
    {steps reached : List Step}
    {pending : List Value}
    {marked after : List Key}
    (ended : walk steps pending marked = .ok (reached, after)) :
    Walks steps pending marked reached after := by
  fun_induction walk steps pending marked generalizing reached after with
  | case1 marked =>
      cases ended
      exact .done
  | case2 =>
      cases ended
  | case3 marked target rest key keyed isMarked inductionHypothesis =>
      exact .pass (Value.key_eq_ok.mp keyed) (fun _ _ => isMarked)
        (inductionHypothesis ended)
  | case4 marked target rest key keyed notMarked notFound inductionHypothesis =>
      refine .pass (Value.key_eq_ok.mp keyed) (fun step stands => ?_)
        (inductionHypothesis ended)
      rw [stands.found] at notFound
      cases notFound
  | case5 =>
      cases ended
  | case6 =>
      cases ended
  | case7 marked target rest key keyed notMarked step found truthy next leads
      later afterLater _ inductionHypothesis =>
      cases ended
      obtain ⟨_, rfl⟩ := lookup_mem found
      exact .visit (Value.key_eq_ok.mp keyed) notMarked ⟨found, truthy⟩ leads
        (inductionHypothesis ‹_›)
  | case8 marked target rest key keyed notMarked step found notTruthy
      inductionHypothesis =>
      refine .pass (Value.key_eq_ok.mp keyed) (fun other stands => ?_)
        (inductionHypothesis ended)
      rw [stands.found] at found
      cases found
      exact (notTruthy stands.truthy).elim

namespace Walks

variable {steps reached : List Step} {pending : List Value}
  {marked after : List Key}

/-- A walk reaches some of the nodes that keys stand for. -/
theorem standsFor_of_mem
    (walks : Walks steps pending marked reached after)
    {step : Step}
    (member : step ∈ reached) :
    StandsFor steps step.key step := by
  induction walks with
  | done =>
      simp at member
  | pass _ _ _ inductionHypothesis =>
      exact inductionHypothesis member
  | visit _ _ stands _ _ inductionHypothesis =>
      rcases List.mem_cons.mp member with rfl | inside
      · exact stands
      · exact inductionHypothesis inside

/--
The keys of the nodes that a walk reaches are marked, and no others are added.
-/
theorem mem_after_iff
    (walks : Walks steps pending marked reached after)
    (key : Key) :
    key ∈ after ↔ key ∈ reached.map Step.key ∨ key ∈ marked := by
  induction walks with
  | done =>
      simp
  | pass _ _ _ inductionHypothesis =>
      exact inductionHypothesis
  | visit _ _ _ _ _ inductionHypothesis =>
      rw [inductionHypothesis]
      simp only [List.map_cons, List.mem_cons]
      tauto

/-- A walk reaches nothing that was marked before. -/
theorem key_not_mem_marked
    (walks : Walks steps pending marked reached after)
    {step : Step}
    (member : step ∈ reached) :
    step.key ∉ marked := by
  induction walks with
  | done =>
      simp at member
  | pass _ _ _ inductionHypothesis =>
      exact inductionHypothesis member
  | visit _ fresh _ _ _ inductionHypothesis =>
      rcases List.mem_cons.mp member with rfl | inside
      · exact fresh
      · exact fun isMarked =>
          inductionHypothesis inside (List.mem_cons_of_mem _ isMarked)

/-- A walk reaches no key twice. -/
theorem keys_nodup
    (walks : Walks steps pending marked reached after) :
    (reached.map Step.key).Nodup := by
  induction walks with
  | done =>
      exact List.nodup_nil
  | pass _ _ _ inductionHypothesis =>
      exact inductionHypothesis
  | visit _ _ _ _ later inductionHypothesis =>
      refine List.nodup_cons.mpr ⟨?_, inductionHypothesis⟩
      intro repeated
      obtain ⟨other, inside, sameKey⟩ := List.mem_map.mp repeated
      apply later.key_not_mem_marked inside
      rw [sameKey]
      exact List.mem_cons_self

/--
The nodes that a walk from unmarked keys reaches, and after them those whose key
is not marked, are all nodes, each once.
-/
theorem reached_append_rest_perm
    (walks : Walks steps pending [] reached after)
    (distinct : (steps.map Step.key).Nodup) :
    (reached ++ steps.filter fun step => !after.contains step.key).Perm
      steps := by
  have reachedIff : ∀ step,
      step ∈ reached ↔ step ∈ steps.filter fun step =>
      after.contains step.key := by
    intro step
    simp only [List.mem_filter, List.contains_iff_mem, walks.mem_after_iff,
      List.not_mem_nil, or_false]
    constructor
    · intro inside
      exact ⟨(walks.standsFor_of_mem inside).mem_and_key.1,
        List.mem_map_of_mem inside⟩
    · rintro ⟨isStep, isMarked⟩
      obtain ⟨other, inside, sameKey⟩ := List.mem_map.mp isMarked
      have otherIsStep := (walks.standsFor_of_mem inside).mem_and_key.1
      rwa [← List.inj_on_of_nodup_map distinct otherIsStep isStep sameKey]
  have reachedPerm :
      reached.Perm (steps.filter fun step => after.contains step.key) :=
    (List.perm_ext_iff_of_nodup walks.keys_nodup.of_map
      (distinct.of_map.filter _)).mpr reachedIff
  exact (reachedPerm.append_right _).trans
    (List.filter_append_perm (fun step => after.contains step.key) steps)

end Walks

/--
The nodes in the order of a walk: those it reached, then those that it left
unmarked.
-/
def inOrder (steps reached : List Step) (marked : List Key) : List Step :=
  reached ++ steps.filter fun step => !marked.contains step.key

/--
How nodes came to be ordered: their numbering, the ids to start from, and the
walk.
-/
structure OrderedBy
    (nodes : List Value)
    (steps : List Step)
    (ids : List Value)
    (reached : List Step)
    (marked : List Key) : Prop where
  numbering : stepsFrom 0 nodes = .ok steps
  starting : startIds steps = .ok ids
  walking : Walks steps ids [] reached marked

namespace OrderedBy

variable {nodes ids : List Value} {steps reached : List Step}
  {marked : List Key}

theorem numbered
    (order : OrderedBy nodes steps ids reached marked) :
    Numbered 0 nodes steps :=
  stepsFrom_numbered order.numbering

theorem mem_steps_of_mem
    (order : OrderedBy nodes steps ids reached marked)
    {step : Step}
    (member : step ∈ inOrder steps reached marked) :
    step ∈ steps := by
  rcases List.mem_append.mp member with wasReached | isLeft
  · exact (order.walking.standsFor_of_mem wasReached).mem_and_key.1
  · exact (List.mem_filter.mp isLeft).1

/-- Looking up the positions of the nodes in order gives the nodes in order. -/
theorem lookUp_positions
    (order : OrderedBy nodes steps ids reached marked) :
    (((inOrder steps reached marked).map Step.position).filterMap fun place =>
      nodes[place]?) = (inOrder steps reached marked).map Step.node := by
  rw [List.filterMap_map, ← List.filterMap_eq_map]
  apply List.filterMap_congr
  intro step member
  exact order.numbered.getElem?_position (order.mem_steps_of_mem member)

end OrderedBy

/-- The positions of listed nodes come from a walk. -/
theorem positionsOf_eq_ok
    {nodes : List Value}
    {places : List Nat}
    (returned : positionsOf nodes = .ok places) :
    ∃ steps ids reached marked,
      OrderedBy nodes steps ids reached marked ∧
        places = (inOrder steps reached marked).map Step.position := by
  simp only [positionsOf, bind_eq_ok, pure_eq_ok] at returned
  obtain ⟨steps, numbering, ids, starting, ⟨reached, marked⟩, ended, rfl⟩ :=
    returned
  exact ⟨steps, ids, reached, marked,
    ⟨numbering, starting, walks_of_walk ended⟩, rfl⟩

theorem positions_list
    (nodes : List Value) :
    positions (.list nodes) = positionsOf nodes := by
  cases nodes with
  | nil =>
      simp [positions, positionsOf, Value.isTruthy, stepsFrom, startIds, starts,
        startsAmong, walk, bind, Except.bind, pure, Except.pure]
  | cons node nodes =>
      simp [positions, Value.isTruthy, Value.elements, bind, Except.bind]

/-- Listed nodes are ordered by finding their positions and looking these up. -/
theorem ordered_list
    (nodes : List Value) :
    ordered (.list nodes) =
      (positionsOf nodes).map fun places => places.filterMap fun place =>
      nodes[place]? := by
  rw [ordered, positions_list]
  cases nodes with
  | nil =>
      cases positionsOf [] <;>
        simp [Value.isTruthy, bind, Except.bind, pure, Except.pure, Except.map]
  | cons node nodes =>
      cases positionsOf (node :: nodes) <;>
        simp [Value.isTruthy, Value.elements, bind, Except.bind, pure,
          Except.pure, Except.map]

/-- Nodes that can be ordered come in the order of a walk. -/
theorem ordered_eq_ok
    {nodes result : List Value}
    (returned : ordered (.list nodes) = .ok result) :
    ∃ steps ids reached marked,
      OrderedBy nodes steps ids reached marked ∧
        positions (.list nodes) =
          .ok ((inOrder steps reached marked).map Step.position) ∧
        result = (inOrder steps reached marked).map Step.node := by
  rw [ordered_list] at returned
  cases placesFound : positionsOf nodes with
  | error fault =>
      rw [placesFound] at returned
      cases returned
  | ok places =>
      rw [placesFound] at returned
      cases returned
      obtain ⟨steps, ids, reached, marked, order, rfl⟩ :=
        positionsOf_eq_ok placesFound
      exact ⟨steps, ids, reached, marked, order,
        (positions_list nodes).trans placesFound, order.lookUp_positions⟩

/--
Ordering nodes with pairwise different ids only rearranges them: every position
comes exactly once, whatever the connections are.
-/
theorem ordered_perm
    {nodes result : List Value}
    (distinct : DistinctIds nodes)
    (returned : ordered (.list nodes) = .ok result) :
    result.Perm nodes ∧
      ∃ places,
        positions (.list nodes) = .ok places ∧
          places.Perm (List.range nodes.length) ∧
          result = places.filterMap fun place => nodes[place]? := by
  obtain ⟨steps, ids, reached, marked, order, placesFound, rfl⟩ :=
    ordered_eq_ok returned
  have rearranged : (inOrder steps reached marked).Perm steps :=
    order.walking.reached_append_rest_perm (order.numbered.keys_nodup distinct)
  refine ⟨?_, _, placesFound, ?_, ?_⟩
  · rw [← order.numbered.nodesOfSteps]
    exact rearranged.map Step.node
  · rw [List.range_eq_range', ← order.numbered.positionsOfSteps]
    exact rearranged.map Step.position
  · exact order.lookUp_positions.symm

/--
Nodes that come in every way: from a start, along a connection, and as a rest of
a cycle that no start leads to and an empty node.
-/
def tangledNodes : List Value :=
  [.object [("id", .text "a"),
     ("connections", .object
       [("main", .list [.list [.object [("node", .text "b")],
         .object [("node", .int 7)]]])])],
   .object [],
   .object [("id", .text "b"),
     ("connections", .object
       [("main", .object [("0", .list [.text "a", .text "lost"])]),
         ("other", .bool true)])],
   .object [("id", .int 1),
     ("connections", .object [("main", .text "c"),
       ("side", .list [.text "c"])])],
   .object [("id", .text "c"),
     ("connections", .object [("main", .list [.text "c"])])]]

theorem ordered_perm_tangledNodes :
    DistinctIds tangledNodes ∧
      ∃ result, ordered (.list tangledNodes) = .ok result ∧
      result.Perm tangledNodes := by
  have distinct : DistinctIds tangledNodes :=
    ⟨[.text "a", .null, .text "b", .ofInt 1, .text "c"], by cbv, by decide⟩
  have returned : ordered (.list tangledNodes) =
      .ok ([3, 4, 0, 1, 2].filterMap fun place => tangledNodes[place]?) := by
    cbv
  exact ⟨distinct, _, returned, (ordered_perm distinct returned).1⟩

end ExecutionOrder

end Flowgen
