import Flowgen.Value.Key

namespace Flowgen.ExecutionOrder

/-!
# Execution order

The nodes of a workflow are put in order by walking along their connections in
depth, from each start node in turn.  A node comes when it is first reached;
nodes that are never reached come last, as they stood.  Nodes are known by the
key of their id; of several with one key the last stands for all.
-/

/-- A node as the walk sees it. -/
structure Step where
  position : Nat
  key : Key
  node : Value
  deriving Repr

/-- A connection: an object with a target, or the id of a target by itself. -/
inductive Link where
  | field (target : Value)
  | direct (id : String)
  deriving Repr

namespace Link

/-- The connection that a value is, if it is one. -/
def ofValue? : Value → Option Link
  | .object fields => some (.field ((Fields.get? "node" fields).getD .null))
  | .text content => some (.direct content)
  | _ => none

/-- Whether a connection leads to the node with a key. -/
def pointsTo (key : Key) : Link → Bool
  | .field target =>
      match target.key? with
      | some other => other.isSame key
      | none => false
  | .direct id => (Key.text id).isSame key

/-- The id to walk to; an object must have one that counts as true. -/
def target? : Link → Option Value
  | .field target => if target.isTruthy then some target else none
  | .direct id => some (.text id)

end Link

/-- The lists of connections under one output. -/
def connectionLists : Value → List Value
  | .object fields => fields.map Prod.snd
  | .list items => items
  | _ => []

/-- The connections in a list; a single one needs no list around it. -/
def connectionsIn : Value → List Value
  | .list items => items
  | other => [other]

/-- The links under all outputs. -/
def linksIn (outputs : Fields) : List Link :=
  outputs.flatMap fun output =>
    (connectionLists output.2).flatMap fun list =>
      (connectionsIn list).filterMap Link.ofValue?

/-- The links of a node. -/
def linksOf (node : Value) : Except Fault (List Link) := do
  let connections ← node.get "connections" (.object [])
  return linksIn (← connections.fieldsFor .items)

/-- Whether one of some nodes has a link to a key. -/
def hasIncoming (key : Key) : List Step → Except Fault Bool
  | [] => .ok false
  | step :: steps => do
      let links ← linksOf step.node
      if links.any (Link.pointsTo key) then
        return true
      else
        hasIncoming key steps

/-- Whether the type of a node says that the workflow starts there. -/
def hasStartType (node : Value) : Except Fault Bool := do
  let type ← node.get "type" (.text "")
  let text ← type.textFor .endsWith
  return Text.endsWith text ".start" || text == "n8n-nodes-start"

/-- The nodes, numbered from a position on, with their keys. -/
def stepsFrom (position : Nat) : List Value → Except Fault (List Step)
  | [] => .ok []
  | node :: nodes => do
      let id ← node.get "id" .null
      let key ← id.key
      return ⟨position, key, node⟩ :: (← stepsFrom (position + 1) nodes)

/--
The start nodes among some: typed as such, or without a link from any node.
-/
def startsAmong (all : List Step) : List Step → Except Fault (List Step)
  | [] => .ok []
  | step :: steps => do
      let incoming ← hasIncoming step.key all
      let typed ← hasStartType step.node
      let rest ← startsAmong all steps
      return if typed || !incoming then step :: rest else rest

/--
Where the walk starts: at the start nodes, or at the first node if there are
none.
-/
def starts (steps : List Step) : Except Fault (List Step) := do
  let found ← startsAmong steps steps
  return if found.isEmpty then steps.take 1 else found

/-- The node that a key stands for. -/
def lookup (steps : List Step) (key : Key) : Option Step :=
  steps.reverse.find? fun step => step.key == key

/-- The ids that a node leads to. -/
def targets (step : Step) : Except Fault (List Value) := do
  return (← linksOf step.node).filterMap Link.target?

/-- How many nodes have a key that is not marked yet. -/
def unmarked (steps : List Step) (marked : List Key) : Nat :=
  (steps.filter fun step => !marked.contains step.key).length

theorem lookup_mem
    {steps : List Step}
    {key : Key}
    {step : Step}
    (found : lookup steps key = some step) :
    step ∈ steps ∧ step.key = key := by
  have member := List.mem_of_find?_eq_some found
  have same := List.find?_some found
  exact ⟨List.mem_reverse.mp member, by simpa using same⟩

/--
Marking the key of a node that was not marked leaves fewer unmarked nodes.
-/
theorem unmarked_cons_lt
    {steps : List Step}
    {marked : List Key}
    {step : Step}
    (member : step ∈ steps)
    (fresh : step.key ∉ marked) :
    unmarked steps (step.key :: marked) < unmarked steps marked := by
  unfold unmarked
  induction steps with
  | nil => simp at member
  | cons other steps inductionHypothesis =>
      have weaker :
          (steps.filter fun step' =>
            !(step.key :: marked).contains step'.key).length
            ≤ (steps.filter fun step' =>
              !marked.contains step'.key).length := by
        rw [← List.countP_eq_length_filter, ← List.countP_eq_length_filter]
        apply List.countP_mono_left
        intro step' _ holds
        simp only [List.contains_cons, Bool.not_or, Bool.and_eq_true] at holds
        exact holds.2
      rcases List.mem_cons.mp member with rfl | inside
      · have first : (!(step.key :: marked).contains step.key) = false := by
          simp
        have second : (!marked.contains step.key) = true := by simpa using fresh
        simp only [List.filter_cons, first, second]
        simpa using Nat.lt_succ_of_le weaker
      · have smaller := inductionHypothesis inside
        simp only [List.filter_cons]
        by_cases kept : (!marked.contains other.key) = true
        · by_cases keptNow : (!(step.key :: marked).contains other.key) = true
          · simp only [kept, keptNow, if_true, List.length_cons]
            omega
          · simp only [kept, keptNow, if_true, List.length_cons]
            simpa using Nat.lt_succ_of_lt smaller
        · have keptNow :
              ¬ (!(step.key :: marked).contains other.key) = true := by
            intro holds
            apply kept
            simp only [List.contains_cons, Bool.not_or, Bool.and_eq_true]
              at holds
            exact holds.2
          simp only [kept, keptNow]
          simpa using smaller

/--
Walk in depth to each of the pending ids that is not marked yet.  The result
holds the nodes in the order they were reached, and the keys marked after it.
-/
def walk
    (steps : List Step)
    (pending : List Value)
    (marked : List Key) :
    Except Fault (List Step × List Key) :=
  match pending with
  | [] => .ok ([], marked)
  | target :: rest =>
      match target.key with
      | .error fault => .error fault
      | .ok key =>
          if key ∈ marked then
            walk steps rest marked
          else
            match _ : lookup steps key with
            | none => walk steps rest marked
            | some step =>
                if step.node.isTruthy then
                  match targets step with
                  | .error fault => .error fault
                  | .ok next =>
                      match walk steps (next ++ rest) (step.key :: marked) with
                      | .error fault => .error fault
                      | .ok (later, after) => .ok (step :: later, after)
                else
                  walk steps rest marked
termination_by (unmarked steps marked, pending.length)
decreasing_by
  · exact Prod.Lex.right _ (by simp)
  · exact Prod.Lex.right _ (by simp)
  · apply Prod.Lex.left
    have facts := lookup_mem ‹lookup steps key = some step›
    exact unmarked_cons_lt facts.1 (by rw [facts.2]; assumption)
  · exact Prod.Lex.right _ (by simp)

/-- The ids where the walk starts. -/
def startIds (steps : List Step) : Except Fault (List Value) := do
  (← starts steps).mapM fun step => step.node.get "id" .null

/-- The positions of nodes in their execution order. -/
def positionsOf (nodes : List Value) : Except Fault (List Nat) := do
  let steps ← stepsFrom 0 nodes
  let (reached, marked) ← walk steps (← startIds steps) []
  let rest := steps.filter fun step => !marked.contains step.key
  return (reached ++ rest).map Step.position

/-- The positions of the elements of a value in their execution order. -/
def positions (nodes : Value) : Except Fault (List Nat) := do
  if nodes.isTruthy then
    positionsOf (← nodes.elements)
  else
    return []

/-- The nodes in their execution order. -/
def ordered (nodes : Value) : Except Fault (List Value) := do
  let places ← positions nodes
  let all ← if nodes.isTruthy then nodes.elements else .ok []
  return places.filterMap fun place => all[place]?

end Flowgen.ExecutionOrder
