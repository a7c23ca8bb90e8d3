import Flowgen.Proofs.RenamedNodes
import Mathlib.Data.List.Dedup

namespace Flowgen.ExecutionOrder

/-!
# The calls that are open in a walk

A walk in depth, taken apart into steps.  A loop calls for each of its targets
that is not marked.  A call ends at its guards if its target is marked or
stands for no node; else it marks the target, and a loop of its own follows.
Only finitely many steps can follow on a state, so the walk ends without a
bound on its depth, and it has one.
-/

/-- A walk between two of its steps. -/
structure Traversal where
  /-- The target of a call that is not past its guards. -/
  entering : Option Value
  /-- What the innermost loop has left. -/
  pending : List Value
  /--
  The calls past their guards, the innermost first: the key that a call
  marked, and what the loop around it has left.
  -/
  visiting : List (Key × List Value)
  marked : List Key
  reached : List Step

namespace Traversal

/-- Before the first step nothing is called. -/
def start (pending : List Value) (marked : List Key) : Traversal :=
  ⟨none, pending, [], marked, []⟩

/-- How many calls are open. -/
def depth (state : Traversal) : Nat :=
  state.visiting.length + state.entering.toList.length

/--
What all loops have left, in the order they come to it; a node has one loop,
over its targets.
-/
def left (state : Traversal) : List Value :=
  state.pending ++ state.visiting.flatMap Prod.snd

/-- The next step, if there is one: a guard, a turn of a loop, or a return. -/
def advance (steps : List Step) : Traversal → Except Fault (Option Traversal)
  | ⟨some target, pending, visiting, marked, reached⟩ =>
      match target.key with
      | .error fault => .error fault
      | .ok key =>
          if key ∈ marked then
            .ok (some ⟨none, pending, visiting, marked, reached⟩)
          else
            match lookup steps key with
            | none => .ok (some ⟨none, pending, visiting, marked, reached⟩)
            | some step =>
                if step.node.isTruthy then
                  match targets step with
                  | .error fault => .error fault
                  | .ok next =>
                      .ok (some ⟨none, next, (key, pending) :: visiting,
                        key :: marked, reached ++ [step]⟩)
                else
                  .ok (some ⟨none, pending, visiting, marked, reached⟩)
  | ⟨none, target :: pending, visiting, marked, reached⟩ =>
      match target.key with
      | .error fault => .error fault
      | .ok key =>
          .ok (some ⟨if key ∈ marked then none else some target, pending,
            visiting, marked, reached⟩)
  | ⟨none, [], (_, rest) :: visiting, marked, reached⟩ =>
      .ok (some ⟨none, rest, visiting, marked, reached⟩)
  | ⟨none, [], [], _, _⟩ => .ok none

/-- The states that steps lead to. -/
def Reaches (steps : List Step) : Traversal → Traversal → Prop :=
  Relation.ReflTransGen fun state later =>
    advance steps state = .ok (some later)

variable {steps : List Step} {state later : Traversal} {marked : List Key}

/-- A step that marks nothing: it leaves less to do. -/
structure Lightens (state later : Traversal) : Prop where
  sameMarked : later.marked = state.marked
  sameReached : later.reached = state.reached
  visiting : later.visiting <:+ state.visiting
  lighter :
    2 * later.left.length + later.depth < 2 * state.left.length + state.depth

/--
A step by which a call gets past its guards: it marks its key, which was not
marked.
-/
structure Marks (steps : List Step) (state later : Traversal) (step : Step) :
  Prop where
  called : state.entering.map Value.key = some (.ok step.key)
  stands : StandsFor steps step.key step
  fresh : step.key ∉ state.marked
  marked : later.marked = step.key :: state.marked
  reached : later.reached = state.reached ++ [step]
  visiting : later.visiting = (step.key, state.pending) :: state.visiting

/-- What a step can do. -/
theorem advance_cases
    (advances : advance steps state = .ok (some later)) :
    Lightens state later ∨ ∃ step, Marks steps state later step := by
  revert advances
  fun_cases advance steps state with
  | case1 | case4 | case7 | case10 =>
      rintro ⟨⟩
  | case2 | case3 | case6 =>
      rintro ⟨⟩
      exact .inl ⟨rfl, rfl, List.suffix_rfl, by simp [left, depth]⟩
  | case5 target pending visiting marked reached key keyed fresh step found
      truthy next =>
      rintro ⟨⟩
      obtain ⟨_, rfl⟩ := lookup_mem found
      exact .inr ⟨step, congrArg some keyed, ⟨found, truthy⟩, fresh, rfl, rfl,
        rfl⟩
  | case8 target pending visiting marked reached key =>
      rintro ⟨⟩
      refine .inl ⟨rfl, rfl, List.suffix_rfl, ?_⟩
      by_cases isMarked : key ∈ marked
      · simp [left, depth, isMarked]
      · simp [left, depth, isMarked]
        omega
  | case9 key rest visiting =>
      rintro ⟨⟩
      exact .inl ⟨rfl, rfl, List.suffix_cons _ _, by simp [left, depth]⟩

/-- Only finitely many steps follow on a state. -/
theorem wellFounded_advance
    (steps : List Step) :
    WellFounded fun later state => advance steps state = .ok (some later) := by
  -- a call takes one target from a loop and opens one call, so a target
  -- weighs more than a call
  let load (state : Traversal) : Nat × Nat :=
    (unmarked steps state.marked, 2 * state.left.length + state.depth)
  refine Subrelation.wf (fun {later state} advances => ?_)
    (InvImage.wf load (Prod.lex Nat.lt_wfRel Nat.lt_wfRel).wf)
  rcases advance_cases advances with lightens | ⟨step, marks⟩
  · simp only [InvImage, load, lightens.sameMarked]
    exact Prod.Lex.right _ lightens.lighter
  · apply Prod.Lex.left
    rw [marks.marked]
    exact unmarked_cons_lt marks.stands.mem_and_key.1 marks.fresh

/-- What the walk gives that is in this state. -/
def outcome
    (steps : List Step)
    (state : Traversal) :
    Except Fault (List Step × List Key) :=
  (walk steps (state.entering.toList ++ state.left) state.marked).map
    fun ended => (state.reached ++ ended.1, ended.2)

/-- A walk passes over a target that stands for an empty node. -/
theorem walk_of_falsy
    {target : Value}
    {rest : List Value}
    {key : Key}
    {step : Step}
    (keyed : target.key = .ok key)
    (found : lookup steps key = some step)
    (notTruthy : ¬ step.node.isTruthy = true) :
    walk steps (target :: rest) marked = walk steps rest marked := by
  rw [walk, keyed]
  dsimp only
  split
  · rfl
  · split
    · rfl
    · rename_i other isOther
      rw [found] at isOther
      cases isOther
      exact if_neg notTruthy

/--
A step does not change what the walk gives; where there is no next step, that
is there.
-/
theorem outcome_eq_advance
    (steps : List Step)
    (state : Traversal) :
    outcome steps state = advance steps state >>= fun next =>
      next.elim (.ok (state.reached, state.marked)) (outcome steps) := by
  fun_cases advance steps state with
  | case1 target pending visiting marked reached fault noKey =>
      exact congrArg (Except.map _) (walk_of_fault noKey)
  | case2 target pending visiting marked reached key keyed isMarked =>
      exact congrArg (Except.map _) (walk_of_marked keyed isMarked)
  | case3 target pending visiting marked reached key keyed fresh unknown =>
      exact congrArg (Except.map _) (walk_of_unknown keyed unknown)
  | case4 target pending visiting marked reached key keyed fresh step found
      truthy fault noTargets =>
      refine (congrArg (Except.map _)
        (walk_of_fresh keyed fresh ⟨found, truthy⟩)).trans ?_
      rw [noTargets]
      rfl
  | case5 target pending visiting marked reached key keyed fresh step found
      truthy next leads =>
      refine (congrArg (Except.map _)
        (walk_of_fresh keyed fresh ⟨found, truthy⟩)).trans ?_
      rw [leads, (lookup_mem found).2]
      change Except.map _ (walk steps
        (next ++ (pending ++ visiting.flatMap Prod.snd)) _ >>= _) =
        Except.map _ (walk steps
          (next ++ (pending ++ visiting.flatMap Prod.snd)) _)
      cases walk steps (next ++ (pending ++ visiting.flatMap Prod.snd))
        (key :: marked) with
      | error fault =>
          rfl
      | ok ended =>
          exact congrArg (fun reached => Except.ok (reached, ended.2))
            (List.append_cons _ _ _)
  | case6 target pending visiting marked reached key keyed fresh step found
      notTruthy =>
      exact congrArg (Except.map _) (walk_of_falsy keyed found notTruthy)
  | case7 target pending visiting marked reached fault noKey =>
      exact congrArg (Except.map _) (walk_of_fault noKey)
  | case8 target pending visiting marked reached key keyed =>
      by_cases isMarked : key ∈ marked
      · rw [if_pos isMarked]
        exact congrArg (Except.map _) (walk_of_marked keyed isMarked)
      · rw [if_neg isMarked]
        rfl
  | case9 =>
      rfl
  | case10 marked reached =>
      simp [outcome, left, walk, Except.map, bind, Except.bind]

/-- The keys of the nodes that were reached, the last one first. -/
def visited (state : Traversal) : List Key :=
  (state.reached.map Step.key).reverse

/--
What holds of every state that a walk comes to: what it marked itself are
different keys of nodes, and the open calls are for some of them, in order.
-/
structure Nested (steps : List Step) (marked : List Key) (state : Traversal) :
  Prop where
  marks : state.marked = state.visited ++ marked
  once : state.visited.Nodup
  fresh : ∀ key ∈ state.visited, key ∉ marked
  known : state.visited ⊆ steps.map Step.key
  opened : (state.visiting.map Prod.fst).Sublist state.visited

theorem Nested.advance
    (nested : Nested steps marked state)
    (advances : advance steps state = .ok (some later)) :
    Nested steps marked later := by
  rcases advance_cases advances with lightens | ⟨step, marks⟩
  · have same : later.visited = state.visited := by
      rw [visited, lightens.sameReached, visited]
    refine ⟨by rw [lightens.sameMarked, nested.marks, same], ?_, ?_, ?_, ?_⟩ <;>
      rw [same]
    · exact nested.once
    · exact nested.fresh
    · exact nested.known
    · exact (lightens.visiting.sublist.map _).trans nested.opened
  · have more : later.visited = step.key :: state.visited := by
      simp [visited, marks.reached]
    have unseen := marks.fresh
    rw [nested.marks, List.mem_append, not_or] at unseen
    refine ⟨by rw [marks.marked, nested.marks, more, List.cons_append], ?_, ?_,
      ?_, ?_⟩ <;> rw [more]
    · exact List.nodup_cons.mpr ⟨unseen.1, nested.once⟩
    · exact List.forall_mem_cons.mpr ⟨unseen.2, nested.fresh⟩
    · exact List.cons_subset.mpr
        ⟨List.mem_map_of_mem marks.stands.mem_and_key.1, nested.known⟩
    · rw [marks.visiting]
      exact nested.opened.cons_cons step.key

/--
The calls past their guards have different keys of nodes, and there is one
other at most.
-/
theorem Nested.depth_le
    (nested : Nested steps marked state) :
    state.depth ≤ (steps.map Step.key).dedup.length + 1 := by
  have distinct : state.visited.Subperm (steps.map Step.key).dedup :=
    List.subperm_of_subset nested.once fun key member =>
      List.mem_dedup.mpr (nested.known member)
  have visiting := nested.opened.length_le.trans distinct.length_le
  rw [List.length_map] at visiting
  have entering : state.entering.toList.length ≤ 1 := by
    cases state.entering <;> simp
  exact Nat.add_le_add visiting entering

theorem nested_of_reaches
    {pending : List Value}
    (reaches : Reaches steps (start pending marked) state) :
    Nested steps marked state := by
  induction reaches with
  | refl =>
      exact ⟨rfl, List.nodup_nil, by simp [visited, start],
        by simp [visited, start], .slnil⟩
  | tail _ advances inductionHypothesis =>
      exact inductionHypothesis.advance advances

theorem marked_suffix_of_reaches
    (reaches : Reaches steps state later) :
    state.marked <:+ later.marked := by
  induction reaches with
  | refl =>
      exact List.suffix_rfl
  | tail _ advances inductionHypothesis =>
      refine inductionHypothesis.trans ?_
      rcases advance_cases advances with lightens | ⟨step, marks⟩
      · exact lightens.sameMarked ▸ List.suffix_rfl
      · exact marks.marked ▸ List.suffix_cons _ _

/--
From every state steps lead to one without a next step, and there the walk has
ended.
-/
theorem exists_reaches_last
    (steps : List Step)
    (state : Traversal) :
    ∃ last, Reaches steps state last ∧
    (∀ later, advance steps last ≠ .ok (some later)) ∧
      outcome steps state = (advance steps last).map fun _ =>
      (last.reached, last.marked) := by
  induction state using (wellFounded_advance steps).induction with
  | _ state inductionHypothesis =>
      have same := outcome_eq_advance steps state
      rcases next :
        advance steps state with fault | _ | later <;> rw [next] at same
      · exact ⟨state, .refl, by simp [next], by rw [same, next]; rfl⟩
      · exact ⟨state, .refl, by simp [next], by rw [same, next]; rfl⟩
      · obtain ⟨last, reaches, isLast, ends⟩ := inductionHypothesis later next
        exact ⟨last, .head next reaches, isLast, same.trans ends⟩

/--
The recursion of a walk is well founded, whatever the connections are.  Every
call that gets past its guards marks the key of a node that was not marked,
nothing is ever unmarked, and at most one call more is open than there are
different keys.  So the steps end, with what the walk gives, and that is no
fault if all targets can be looked up.
-/
theorem walk_calls_wellFounded
    (steps : List Step)
    (pending : List Value)
    (marked : List Key) :
    (WellFounded fun later state => advance steps state = .ok (some later)) ∧
    (∀ state, Reaches steps (start pending marked) state →
      state.depth ≤ (steps.map Step.key).dedup.length + 1 ∧
      (state.marked = state.visited ++ marked ∧ state.visited.Nodup ∧
        ∀ key ∈ state.visited, key ∉ marked) ∧
      (∀ later, Reaches steps state later → state.marked <:+ later.marked) ∧
      ∀ later, advance steps state = .ok (some later) →
        state.visiting.length < later.visiting.length →
        ∃ step, Marks steps state later step) ∧
    (∃ last, Reaches steps (start pending marked) last ∧
      (∀ later, advance steps last ≠ .ok (some later)) ∧
      walk steps pending marked = (advance steps last).map fun _ =>
      (last.reached, last.marked)) ∧
    ((∀ target ∈ pending, ∃ key, target.key? = some key) →
      (∀ step ∈ steps, ∃ next, targets step = .ok next ∧
        ∀ target ∈ next, ∃ key, target.key? = some key) →
      ∃ ended, walk steps pending marked = .ok ended) := by
  refine ⟨wellFounded_advance steps, fun state reaches => ?_, ?_,
    fun keyed leadOn => ?_⟩
  · have nested := nested_of_reaches reaches
    refine ⟨nested.depth_le, ⟨nested.marks, nested.once, nested.fresh⟩,
      fun later => marked_suffix_of_reaches, fun later advances deeper => ?_⟩
    exact (advance_cases advances).resolve_left fun lightens =>
      absurd lightens.visiting.length_le (by omega)
  · obtain ⟨last, reaches, isLast, ends⟩ :=
      exists_reaches_last steps (start pending marked)
    refine ⟨last, reaches, isLast, ends ▸ ?_⟩
    rw [outcome, left, start]
    simp only [Option.toList, List.flatMap_nil, List.append_nil,
      List.nil_append]
    cases walk steps pending marked <;> rfl
  · exact exists_walk leadOn keyed marked

end Traversal

end Flowgen.ExecutionOrder
