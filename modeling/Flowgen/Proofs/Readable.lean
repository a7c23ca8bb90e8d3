import Flowgen.Proofs.ReachedNodes

namespace Flowgen.ExecutionOrder

/-!
# When ordering returns

Ordering asks every node for its type, and each node that it visits for its
connections and for keys of what these lead to.  Nodes that can answer are
ordered without a fault, and a node that was visited has answered.
-/

variable {node : Value}

/--
A node that can be read: its connections, its type, and what it leads on to.
-/
structure Readable (node : Value) : Prop where
  connections :
    ∃ outputs, (node.field? "connections").getD (.object []) = .object outputs
  type : ∃ type, (node.field? "type").getD (.text "") = .text type
  targets : ∀ target ∈ targetsOf node, ∃ key, target.key? = some key

variable {nodes : List Value} {steps : List Step}

theorem kind_of_textId?
    {id : String}
    (isId : textId? node = some id) :
    node.kind = .object := by
  cases node <;> simp_all [textId?, Value.field?, Value.kind]

/-- The type of an object can be asked for exactly if it is a text. -/
theorem exists_hasStartType
    (isObject : node.kind = .object) :
    (∃ typed, hasStartType node = .ok typed) ↔
      ∃ type, (node.field? "type").getD (.text "") = .text type := by
  simp only [hasStartType, bind_eq_ok, pure_eq_ok, Value.get_eq_ok, isObject,
    true_and]
  cases (node.field? "type").getD (.text "") with
  | text content =>
      simp [Value.textFor]
  | _ =>
      simp [Value.textFor]

/--
The links of an object can be asked for exactly if its connections are an
object.
-/
theorem exists_linksOf
    (isObject : node.kind = .object) :
    (∃ links, linksOf node = .ok links) ↔
      ∃ outputs, (node.field? "connections").getD (.object []) =
        .object outputs := by
  simp only [linksOf_eq_ok, isObject, true_and]
  constructor
  · rintro ⟨_, outputs, outputsAre, _⟩
    exact ⟨outputs, outputsAre⟩
  · rintro ⟨outputs, outputsAre⟩
    exact ⟨_, outputs, outputsAre, rfl⟩

theorem exists_stepsFrom
    (identified : ∀ node ∈ nodes, ∃ id, textId? node = some id)
    (position : Nat) :
    ∃ steps, stepsFrom position nodes = .ok steps := by
  induction nodes generalizing position with
  | nil =>
      exact ⟨[], rfl⟩
  | cons node nodes inductionHypothesis =>
      obtain ⟨⟨id, isId⟩, restIdentified⟩ := List.forall_mem_cons.mp identified
      obtain ⟨rest, restNumbered⟩ :=
        inductionHypothesis restIdentified (position + 1)
      refine ⟨⟨position, .text id, node⟩ :: rest, ?_⟩
      simp only [stepsFrom, bind_eq_ok, pure_eq_ok, Value.get_eq_ok,
        Value.key_eq_ok]
      exact ⟨idOf node, ⟨kind_of_textId? isId, rfl⟩, .text id,
        idKey?_of_textId? isId, rest, restNumbered, rfl⟩

theorem exists_hasIncoming
    (linked : ∀ step ∈ steps, ∃ links, linksOf step.node = .ok links)
    (key : Key) :
    ∃ incoming, hasIncoming key steps = .ok incoming := by
  induction steps with
  | nil =>
      exact ⟨false, rfl⟩
  | cons step steps inductionHypothesis =>
      obtain ⟨⟨links, linksAre⟩, restLinked⟩ := List.forall_mem_cons.mp linked
      simp only [hasIncoming, bind_eq_ok, linksAre, Except.ok.injEq,
        exists_eq_left']
      split
      · exact ⟨true, rfl⟩
      · exact inductionHypothesis restLinked

theorem exists_startsAmong
    {all : List Step}
    (linked : ∀ step ∈ all, ∃ links, linksOf step.node = .ok links)
    (typed : ∀ step ∈ steps, ∃ typed, hasStartType step.node = .ok typed) :
    ∃ found, startsAmong all steps = .ok found := by
  induction steps with
  | nil =>
      exact ⟨[], rfl⟩
  | cons step steps inductionHypothesis =>
      obtain ⟨⟨isTyped, typedIs⟩, restTyped⟩ := List.forall_mem_cons.mp typed
      obtain ⟨incoming, incomingIs⟩ := exists_hasIncoming linked step.key
      obtain ⟨rest, restIs⟩ := inductionHypothesis restTyped
      simp only [startsAmong, bind_eq_ok, pure_eq_ok, incomingIs, typedIs,
        restIs, Except.ok.injEq, exists_eq_left']
      exact ⟨_, rfl⟩

theorem exists_startIds
    (isObject : ∀ step ∈ steps, step.node.kind = .object)
    (linked : ∀ step ∈ steps, ∃ links, linksOf step.node = .ok links)
    (typed : ∀ step ∈ steps, ∃ typed, hasStartType step.node = .ok typed) :
    ∃ ids, startIds steps = .ok ids := by
  obtain ⟨found, foundIs⟩ := exists_startsAmong linked typed
  have foundSublist : found.Sublist steps := by
    rw [(startsAmong_eq_ok foundIs).1]
    exact List.filter_sublist
  have getsIds : ∀ chosen : List Step, chosen.Sublist steps →
      ∃ ids, chosen.mapM (fun step => step.node.get "id" .null) = .ok ids := by
    intro chosen
    induction chosen with
    | nil =>
        exact fun _ => ⟨[], rfl⟩
    | cons step chosen inductionHypothesis =>
        intro sublist
        obtain ⟨rest, restIs⟩ :=
          inductionHypothesis (List.sublist_of_cons_sublist sublist)
        have nodeIsObject := isObject step (sublist.subset List.mem_cons_self)
        simp only [List.mapM_cons, bind_eq_ok, pure_eq_ok, Value.get_eq_ok,
          nodeIsObject, true_and, restIs, Except.ok.injEq, exists_eq_left']
        exact ⟨_, rfl⟩
  simp only [startIds, starts, bind_eq_ok, pure_eq_ok, foundIs, Except.ok.injEq,
    exists_eq_left']
  split
  · exact getsIds _ (List.take_sublist 1 steps)
  · exact getsIds _ foundSublist

/--
A walk ends if every target on the way, and what it leads on to, can be looked
up.
-/
theorem exists_walk
    {pending : List Value}
    (leadOn : ∀ step ∈ steps, ∃ next,
      targets step = .ok next ∧ ∀ target ∈ next, ∃ key, target.key? = some key)
    (keyed : ∀ target ∈ pending, ∃ key, target.key? = some key)
    (marked : List Key) :
    ∃ reached, walk steps pending marked = .ok reached := by
  fun_induction walk steps pending marked with
  | case1 marked =>
      exact ⟨_, rfl⟩
  | case2 marked target rest fault noKey =>
      obtain ⟨key, isKey⟩ := keyed target List.mem_cons_self
      rw [Value.key_eq_ok.mpr isKey] at noKey
      cases noKey
  | case3 marked target rest key keyIs isMarked inductionHypothesis =>
      exact inductionHypothesis (List.forall_mem_cons.mp keyed).2
  | case4 marked target rest key keyIs notMarked notFound inductionHypothesis =>
      exact inductionHypothesis (List.forall_mem_cons.mp keyed).2
  | case5 marked target rest key keyIs notMarked step found truthy fault
      noTargets =>
      obtain ⟨next, leads, _⟩ := leadOn step (lookup_mem found).1
      rw [leads] at noTargets
      cases noTargets
  | case6 marked target rest key keyIs notMarked step found truthy next leads
      fault failed inductionHypothesis =>
      obtain ⟨others, leadsToo, nextKeyed⟩ := leadOn step (lookup_mem found).1
      rw [leads] at leadsToo
      cases leadsToo
      obtain ⟨reached, ended⟩ := inductionHypothesis
        (List.forall_mem_append.mpr
          ⟨nextKeyed, (List.forall_mem_cons.mp keyed).2⟩)
      rw [failed] at ended
      cases ended
  | case7 =>
      exact ⟨_, rfl⟩
  | case8 marked target rest key keyIs notMarked step found notTruthy
      inductionHypothesis =>
      exact inductionHypothesis (List.forall_mem_cons.mp keyed).2

/-- Nodes that can be read are ordered without a fault. -/
theorem exists_ordered
    (identified : TextIds nodes)
    (readable : ∀ node ∈ nodes, Readable node) :
    ∃ result, ordered (.list nodes) = .ok result := by
  have textIds : ∀ node ∈ nodes, ∃ id, textId? node = some id := by
    intro node member
    obtain ⟨id, isId, _⟩ := identified.exists_id member
    exact ⟨id, isId⟩
  obtain ⟨steps, numbering⟩ := exists_stepsFrom textIds 0
  have numbered := stepsFrom_numbered numbering
  have isNode : ∀ step ∈ steps, step.node ∈ nodes := by
    intro step member
    rw [← numbered.nodesOfSteps]
    exact List.mem_map_of_mem member
  have isObject : ∀ step ∈ steps, step.node.kind = .object := by
    intro step member
    obtain ⟨id, isId⟩ := textIds step.node (isNode step member)
    exact kind_of_textId? isId
  have linked : ∀ step ∈ steps, ∃ links, linksOf step.node = .ok links :=
    fun step member =>
      (exists_linksOf (isObject step member)).mpr
        (readable _ (isNode step member)).connections
  obtain ⟨ids, starting⟩ := exists_startIds isObject linked fun step member =>
    (exists_hasStartType (isObject step member)).mpr
      (readable _ (isNode step member)).type
  have startsKeyed : ∀ target ∈ ids, ∃ key, target.key? = some key := by
    obtain ⟨chosen, chosenAre, rfl⟩ := startIds_eq_ok starting
    have sublist := (starts_eq_ok numbered identified chosenAre).1
    intro target isId
    obtain ⟨step, isChosen, rfl⟩ := List.mem_map.mp isId
    exact ⟨step.key, numbered.idKey?_node (sublist.subset isChosen)⟩
  have leadOn : ∀ step ∈ steps, ∃ next,
      targets step = .ok next ∧
      ∀ target ∈ next, ∃ key, target.key? = some key :=
    fun step member =>
      ⟨targetsOf step.node, targets_eq_ok.mpr ⟨linked step member, rfl⟩,
      (readable _ (isNode step member)).targets⟩
  obtain ⟨reached, ended⟩ := exists_walk leadOn startsKeyed []
  have placesFound : ∃ places, positionsOf nodes = .ok places := by
    simp only [positionsOf, bind_eq_ok, pure_eq_ok, numbering, starting, ended,
      Except.ok.injEq, exists_eq_left']
    exact ⟨_, rfl⟩
  obtain ⟨places, placesAre⟩ := placesFound
  rw [ordered_list, placesAre]
  exact ⟨_, rfl⟩

/-- If ordering returns, the types of all nodes are texts. -/
theorem type_of_ordered
    {result : List Value}
    (returned : ordered (.list nodes) = .ok result)
    (member : node ∈ nodes) :
    ∃ typed, hasStartType node = .ok typed := by
  obtain ⟨steps, ids, reached, marked, order, _, _⟩ := ordered_eq_ok returned
  obtain ⟨chosen, chosenAre, _⟩ := startIds_eq_ok order.starting
  simp only [starts, bind_eq_ok] at chosenAre
  obtain ⟨found, foundIs, _⟩ := chosenAre
  rw [← order.numbered.nodesOfSteps] at member
  obtain ⟨step, isStep, rfl⟩ := List.mem_map.mp member
  obtain ⟨_, typed, _, typedIs⟩ := (startsAmong_eq_ok foundIs).2 step isStep
  exact ⟨typed, typedIs⟩

/-- If ordering returns, the nodes that were reached could be read. -/
theorem readable_of_ordered
    (identified : TextIds nodes)
    {result : List Value}
    (returned : ordered (.list nodes) = .ok result)
    (reachable : Reachable nodes node) :
    Readable node := by
  obtain ⟨steps, chosen, entries, marked, exploration, _, _⟩ :=
    ordered_explores identified returned
  obtain ⟨entry, isFound, rfl⟩ := exploration.found_iff_reachable.mpr reachable
  have member := exploration.found_mem isFound
  obtain ⟨id, isId, _⟩ := identified.exists_id member
  have isObject := kind_of_textId? isId
  obtain ⟨next, leads, seen⟩ := exploration.explores.closed entry isFound
  obtain ⟨linked, targetsAre⟩ := targets_eq_ok.mp leads
  refine ⟨(exists_linksOf isObject).mp linked,
    (exists_hasStartType isObject).mp (type_of_ordered returned member), ?_⟩
  intro target isTarget
  rw [targetsAre] at isTarget
  obtain ⟨place, found⟩ := List.mem_iff_getElem?.mp isTarget
  obtain ⟨key, keyed, _⟩ := seen place target found
  exact ⟨key, keyed⟩

end Flowgen.ExecutionOrder
