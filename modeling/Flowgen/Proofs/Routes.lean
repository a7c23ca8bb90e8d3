import Flowgen.Proofs.Graph
import Mathlib.Data.List.Lex

namespace Flowgen.ExecutionOrder

/-!
# Routes

A route says how to get to a node: the position of a start node, then for each
node on the way the place of a target among the targets of that node.  A walk in
depth tries routes in the order of a dictionary, where a route comes before all
that go on from it.  This order explains which node comes first.
-/

/-- A way to a node: a start position, then one place for each link. -/
abbrev Route :=
  List Nat

/--
The first route turns off to a smaller number where the second one does not.
-/
def TurnsBefore : Route → Route → Prop
  | first :: firstRest, second :: secondRest =>
      first < second ∨ first = second ∧ TurnsBefore firstRest secondRest
  | _, _ => False

namespace TurnsBefore

theorem lt
    {first second : Route}
    (turns : TurnsBefore first second) :
    first < second := by
  induction first generalizing second with
  | nil =>
      cases turns
  | cons head tail inductionHypothesis =>
      cases second with
      | nil =>
          cases turns
      | cons otherHead otherTail =>
          rw [List.cons_lt_cons_iff]
          rcases turns with smaller | ⟨same, later⟩
          · exact Or.inl smaller
          · exact Or.inr ⟨same, inductionHypothesis later⟩

/-- Where routes go on to does not matter after one has turned off. -/
theorem append
    {first second : Route}
    (turns : TurnsBefore first second)
    (firstRest secondRest : Route) :
    TurnsBefore (first ++ firstRest) (second ++ secondRest) := by
  induction first generalizing second with
  | nil =>
      cases turns
  | cons head tail inductionHypothesis =>
      cases second with
      | nil =>
          cases turns
      | cons otherHead otherTail =>
          rcases turns with smaller | ⟨same, later⟩
          · exact Or.inl smaller
          · exact Or.inr ⟨same, inductionHypothesis later⟩

/-- Routes that go on from one place turn off by their next numbers. -/
theorem of_common
    (common : Route)
    {first second : Nat}
    (smaller : first < second) :
    TurnsBefore (common ++ [first]) (common ++ [second]) := by
  induction common with
  | nil =>
      exact Or.inl smaller
  | cons head tail inductionHypothesis =>
      exact Or.inr ⟨rfl, inductionHypothesis⟩

end TurnsBefore

theorem route_lt_append
    (route : Route)
    (next : Nat)
    (rest : Route) :
    route < route ++ next :: rest := by
  induction route with
  | nil =>
      exact List.nil_lt_cons next rest
  | cons head tail inductionHypothesis =>
      exact List.cons_lt_cons_iff.mpr (Or.inr ⟨rfl, inductionHypothesis⟩)

/--
A route comes before another one if that goes on from it or it turns off
earlier.
-/
theorem route_lt_iff
    {first second : Route} :
    first < second ↔
      (∃ next rest, second = first ++ next :: rest) ∨
      TurnsBefore first second := by
  constructor
  · intro before
    induction first generalizing second with
    | nil =>
        cases second with
        | nil =>
            exact absurd before (lt_irrefl _)
        | cons next rest =>
            exact Or.inl ⟨next, rest, rfl⟩
    | cons head tail inductionHypothesis =>
        cases second with
        | nil =>
            exact absurd before (List.not_lt_nil _)
        | cons otherHead otherTail =>
            rcases List.cons_lt_cons_iff.mp before with smaller | ⟨rfl, later⟩
            · exact Or.inr (Or.inl smaller)
            · rcases inductionHypothesis later with ⟨next, rest, rfl⟩ | turns
              · exact Or.inl ⟨next, rest, rfl⟩
              · exact Or.inr (Or.inr ⟨rfl, turns⟩)
  · rintro (⟨next, rest, rfl⟩ | turns)
    · exact route_lt_append first next rest
    · exact turns.lt

/-- A node that was reached, with the route on which it was reached first. -/
abbrev Found :=
  Route × Step

/--
A target has been seen to: if it stands for a node, that is marked or was
reached no later than on the given route.
-/
def SeenTo
    (steps : List Step)
    (marked : List Key)
    (entries : List Found)
    (route : Route)
    (target : Value) : Prop :=
  ∃ key,
    target.key? = some key ∧
      ∀ step, StandsFor steps key step →
        key ∈ marked ∨ ∃ entry ∈ entries, entry.2 = step ∧ entry.1 ≤ route

/-- What a walk to pending targets finds, given the routes to these targets. -/
structure Explores
    (steps : List Step)
    (pending : List (Route × Value))
    (marked : List Key)
    (entries : List Found) : Prop where
  /-- Nodes come in the order of the routes to them. -/
  sorted : entries.Pairwise fun first second => first.1 < second.1
  /-- Every route goes on from that of a pending target. -/
  rooted : ∀ entry ∈ entries, ∃ target ∈ pending, target.1 <+: entry.1
  /-- A node is a pending target, or a target of a node that was reached. -/
  origin : ∀ entry ∈ entries,
    (∃ target, (entry.1, target) ∈ pending ∧ target.key? = some entry.2.key) ∨
      ∃ source ∈ entries, ∃ next place target,
        targets source.2 = .ok next ∧
          next[place]? = some target ∧
          target.key? = some entry.2.key ∧
          entry.1 = source.1 ++ [place]
  /-- Every pending target has been seen to. -/
  covers : ∀ target ∈ pending, SeenTo steps marked entries target.1 target.2
  /-- Every target of a node that was reached has been seen to. -/
  closed : ∀ entry ∈ entries, ∃ next,
    targets entry.2 = .ok next ∧
      ∀ place target, next[place]? = some target →
        SeenTo steps marked entries (entry.1 ++ [place]) target

/-- The targets of a node with the routes that go on to them. -/
def onward (route : Route) (next : List Value) : List (Route × Value) :=
  next.zipIdx.map fun target => (route ++ [target.2], target.1)

theorem onward_targets
    (route : Route)
    (next : List Value) :
    (onward route next).map Prod.snd = next := by
  simp [onward, Function.comp_def]

theorem mem_onward
    {route : Route}
    {next : List Value}
    {entry : Route × Value} :
    entry ∈ onward route next ↔
      ∃ place, next[place]? = some entry.2 ∧ entry.1 = route ++ [place] := by
  simp only [onward, List.mem_map, Prod.exists, List.mem_zipIdx_iff_getElem?]
  constructor
  · rintro ⟨target, place, found, rfl⟩
    exact ⟨place, found, rfl⟩
  · rintro ⟨place, found, routeIs⟩
    exact ⟨entry.2, place, found, Prod.ext routeIs.symm rfl⟩

/-- The routes that go on from one place turn off one after the other. -/
theorem onward_turns
    (route : Route)
    (next : List Value) :
    (onward route next).Pairwise fun first second =>
    TurnsBefore first.1 second.1 := by
  rw [onward, List.pairwise_map]
  have increasing : (next.zipIdx.map Prod.snd).Pairwise (· < ·) := by
    rw [List.zipIdx_map_snd]
    exact List.pairwise_lt_range'
  exact (List.pairwise_map.mp increasing).imp fun smaller =>
    TurnsBefore.of_common route smaller

namespace SeenTo

variable {steps : List Step} {marked : List Key} {entries : List Found}
  {route : Route} {target : Value}

/--
What was seen to after marking a node was seen to with that node among the
reached.
-/
theorem cons
    {first : Found}
    (stands : StandsFor steps first.2.key first.2)
    (later : SeenTo steps (first.2.key :: marked) entries route target)
    (before : first.1 ≤ route) :
    SeenTo steps marked (first :: entries) route target := by
  obtain ⟨key, keyed, seen⟩ := later
  refine ⟨key, keyed, ?_⟩
  intro step standsForKey
  rcases seen step standsForKey with
    isMarked | ⟨entry, member, entryIs, entryBefore⟩
  · rcases List.mem_cons.mp isMarked with rfl | wasMarked
    · exact Or.inr ⟨first, List.mem_cons_self, stands.unique standsForKey,
        before⟩
    · exact Or.inl wasMarked
  · exact Or.inr ⟨entry, List.mem_cons_of_mem _ member, entryIs, entryBefore⟩

end SeenTo

namespace Explores

variable {steps : List Step} {marked : List Key} {entries : List Found}
  {route : Route} {target : Value} {rest : List (Route × Value)}

theorem pass
    {key : Key}
    (keyed : target.key? = some key)
    (passed : ∀ step, StandsFor steps key step → key ∈ marked)
    (later : Explores steps rest marked entries) :
    Explores steps ((route, target) :: rest) marked entries where
  sorted := later.sorted
  rooted entry member := by
    obtain ⟨other, isPending, isPrefix⟩ := later.rooted entry member
    exact ⟨other, List.mem_cons_of_mem _ isPending, isPrefix⟩
  origin entry member := by
    rcases later.origin entry member with
      ⟨other, isPending, otherKeyed⟩ | fromSource
    · exact Or.inl ⟨other, List.mem_cons_of_mem _ isPending, otherKeyed⟩
    · exact Or.inr fromSource
  covers := by
    rintro other isPending
    rcases List.mem_cons.mp isPending with rfl | inside
    · exact ⟨key, keyed, fun step stands => Or.inl (passed step stands)⟩
    · exact later.covers other inside
  closed := later.closed

/-- Visiting a node finds it, and then what its targets and the rest lead to. -/
theorem visit
    {step : Step}
    {next : List Value}
    (keyed : target.key? = some step.key)
    (stands : StandsFor steps step.key step)
    (leads : targets step = .ok next)
    (turns : ∀ other ∈ rest, TurnsBefore route other.1)
    (later : Explores steps (onward route next ++ rest) (step.key :: marked)
      entries) :
    Explores steps ((route, target) :: rest) marked
      ((route, step) :: entries) := by
  have goesOn : ∀ entry ∈ entries,
      route < entry.1 ∧ ∃ pending ∈ (route, target) :: rest,
      pending.1 <+: entry.1 := by
    intro entry member
    obtain ⟨other, isPending, tail, routeIs⟩ := later.rooted entry member
    rcases List.mem_append.mp isPending with isOnward | inRest
    · obtain ⟨place, _, otherIs⟩ := mem_onward.mp isOnward
      have entryIs : entry.1 = route ++ place :: tail := by
        rw [← routeIs, otherIs, List.append_assoc, List.singleton_append]
      exact ⟨entryIs ▸ route_lt_append route place tail,
        _, List.mem_cons_self, entryIs ▸ List.prefix_append route _⟩
    · have turnsOff := (turns other inRest).append [] tail
      rw [List.append_nil, routeIs] at turnsOff
      exact ⟨turnsOff.lt, other, List.mem_cons_of_mem _ inRest, tail, routeIs⟩
  refine ⟨?_, ?_, ?_, ?_, ?_⟩
  · exact List.pairwise_cons.mpr
      ⟨fun entry member => (goesOn entry member).1, later.sorted⟩
  · rintro entry member
    rcases List.mem_cons.mp member with rfl | inside
    · exact ⟨_, List.mem_cons_self, List.prefix_rfl⟩
    · exact (goesOn entry inside).2
  · rintro entry member
    rcases List.mem_cons.mp member with rfl | inside
    · exact Or.inl ⟨target, List.mem_cons_self, keyed⟩
    · rcases later.origin entry inside with
        ⟨other, isPending, otherKeyed⟩ | ⟨source, isFound, facts⟩
      · rcases List.mem_append.mp isPending with isOnward | inRest
        · obtain ⟨place, found, routeIs⟩ := mem_onward.mp isOnward
          exact Or.inr ⟨_, List.mem_cons_self, next, place, other, leads, found,
            otherKeyed, routeIs⟩
        · exact Or.inl ⟨other, List.mem_cons_of_mem _ inRest, otherKeyed⟩
      · exact Or.inr ⟨source, List.mem_cons_of_mem _ isFound, facts⟩
  · rintro other isPending
    rcases List.mem_cons.mp isPending with rfl | inRest
    · exact ⟨step.key, keyed, fun same standsToo =>
        Or.inr ⟨_, List.mem_cons_self, stands.unique standsToo, le_refl _⟩⟩
    · exact (later.covers other (List.mem_append_right _ inRest)).cons stands
        (turns other inRest).lt.le
  · rintro entry member
    rcases List.mem_cons.mp member with rfl | inside
    · refine ⟨next, leads, fun place other found => ?_⟩
      have isOnward : (route ++ [place], other) ∈ onward route next :=
        mem_onward.mpr ⟨place, found, rfl⟩
      exact (later.covers _ (List.mem_append_left _ isOnward)).cons stands
        (route_lt_append route place []).le
    · obtain ⟨others, leadsOn, seen⟩ := later.closed entry inside
      refine ⟨others, leadsOn,
        fun place other found => (seen place other found).cons stands ?_⟩
      exact ((goesOn entry inside).1.trans
        (route_lt_append entry.1 place [])).le

end Explores

/-- Every walk that ends well finds nodes in the order of the routes to them. -/
theorem Walks.explores
    {steps reached : List Step}
    {pending : List Value}
    {marked after : List Key}
    (walks : Walks steps pending marked reached after)
    {routed : List (Route × Value)}
    (pendingIs : routed.map Prod.snd = pending)
    (turns : routed.Pairwise fun first second => TurnsBefore first.1 second.1) :
    ∃ entries, entries.map Prod.snd = reached ∧
    Explores steps routed marked entries := by
  induction walks generalizing routed with
  | done =>
      cases List.map_eq_nil_iff.mp pendingIs
      exact ⟨[], rfl, .nil, by simp, by simp, by simp, by simp⟩
  | pass keyed passed _ inductionHypothesis =>
      obtain ⟨⟨route, target⟩, rest, rfl, rfl, rfl⟩ :=
        List.map_eq_cons_iff.mp pendingIs
      obtain ⟨entries, reachedAre, later⟩ :=
        inductionHypothesis rfl (List.pairwise_cons.mp turns).2
      exact ⟨entries, reachedAre, later.pass keyed passed⟩
  | @visit _ _ next _ _ _ step keyed _ stands leads _ inductionHypothesis =>
      obtain ⟨⟨route, target⟩, rest, rfl, rfl, rfl⟩ :=
        List.map_eq_cons_iff.mp pendingIs
      obtain ⟨turnsFirst, turnsRest⟩ := List.pairwise_cons.mp turns
      -- the targets of the node turn off before everything that is still
      -- pending
      have turnsOnward : (onward route next ++ rest).Pairwise
          fun first second => TurnsBefore first.1 second.1 := by
        refine List.pairwise_append.mpr ⟨onward_turns route next, turnsRest, ?_⟩
        intro first isOnward second inRest
        obtain ⟨place, _, routeIs⟩ := mem_onward.mp isOnward
        have turnsOff := (turnsFirst second inRest).append [place] []
        rwa [List.append_nil, ← routeIs] at turnsOff
      obtain ⟨entries, reachedAre, later⟩ :=
        inductionHypothesis (by rw [List.map_append, onward_targets])
          turnsOnward
      exact ⟨(route, step) :: entries, by rw [List.map_cons, reachedAre],
        later.visit keyed stands leads turnsFirst⟩

theorem pair_sublist_or
    {first second : α}
    {items : List α}
    (firstMember : first ∈ items)
    (secondMember : second ∈ items)
    (different : first ≠ second) :
    [first, second].Sublist items ∨ [second, first].Sublist items := by
  induction items with
  | nil =>
      simp at firstMember
  | cons head rest inductionHypothesis =>
      rcases List.mem_cons.mp firstMember with rfl | firstInside
      · have inside :=
          (List.mem_cons.mp secondMember).resolve_left (Ne.symm different)
        exact Or.inl ((List.singleton_sublist.mpr inside).cons_cons _)
      · rcases List.mem_cons.mp secondMember with rfl | secondInside
        · exact Or.inr ((List.singleton_sublist.mpr firstInside).cons_cons _)
        · exact (inductionHypothesis firstInside secondInside).imp (.cons head)
            (.cons head)

namespace Explores

variable {steps : List Step} {pending : List (Route × Value)}
  {marked : List Key} {entries : List Found} {first second : Found}

/--
Of two nodes that were found, the one with the earlier route stands before the
other.
-/
theorem pair_sublist
    (explores : Explores steps pending marked entries)
    (firstFound : first ∈ entries)
    (secondFound : second ∈ entries)
    (before : first.1 < second.1) :
    [first, second].Sublist entries := by
  have different : first ≠ second := by
    rintro rfl
    exact lt_irrefl _ before
  rcases pair_sublist_or firstFound secondFound different with
    inOrder | reversed
  · exact inOrder
  · have after := List.pairwise_iff_forall_sublist.mp explores.sorted reversed
    exact absurd (before.trans after) (lt_irrefl _)

end Explores

end Flowgen.ExecutionOrder
