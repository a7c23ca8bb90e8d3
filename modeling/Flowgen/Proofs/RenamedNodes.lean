import Flowgen.Proofs.Readable
import Mathlib.Data.List.Forall2

namespace Flowgen

/-!
# Nodes under other names

Ordering compares ids and does nothing else with them.  Two lists of nodes
that correspond one by one, with ids and targets renamed, are therefore
ordered in step: every function on the way ends alike for both, in the same
fault or with results that correspond.
-/

/--
Two computations that end alike: in the same fault, or with related results.
-/
inductive EndAlike (related : α → β → Prop) :
  Except ε α → Except ε β → Prop where
  | ok {first : α} {second : β} (isRelated : related first second) :
      EndAlike related (.ok first) (.ok second)
  | error (fault : ε) :
      EndAlike related (.error fault) (.error fault)

namespace EndAlike

theorem refl
    (computation : Except ε α) :
    EndAlike Eq computation computation := by
  cases computation with
  | ok result =>
      exact .ok rfl
  | error fault =>
      exact .error fault

theorem bind
    {related : α → β → Prop}
    {alsoRelated : γ → δ → Prop}
    {first : Except ε α}
    {second : Except ε β}
    {next : α → Except ε γ}
    {other : β → Except ε δ}
    (alike : EndAlike related first second)
    (rest : ∀ one another, related one another →
      EndAlike alsoRelated (next one) (other another)) :
    EndAlike alsoRelated (first >>= next) (second >>= other) := by
  cases alike with
  | ok isRelated =>
      exact rest _ _ isRelated
  | error fault =>
      exact .error fault

theorem eq
    {first second : Except ε α}
    (alike : EndAlike (fun one another => another = one) first second) :
    second = first := by
  cases alike with
  | ok same =>
      rw [same]
  | error fault =>
      rfl

end EndAlike

theorem Value.get_of_kind
    {value fallback : Value}
    {name : String}
    (isObject : value.kind = .object) :
    value.get name fallback = .ok ((value.field? name).getD fallback) :=
  Value.get_eq_ok.mpr ⟨isObject, rfl⟩

namespace ExecutionOrder

theorem get_of_textId?
    {node : Value}
    {id : String}
    (isId : textId? node = some id) :
    node.get "id" .null = .ok (.text id) := by
  rw [Value.get_of_kind (kind_of_textId? isId)]
  unfold textId? at isId
  split at isId
  · rename_i found
    cases isId
    rw [found, Option.getD_some]
  · cases isId

section Walking

variable {steps : List Step} {target : Value} {rest : List Value}
  {marked : List Key} {key : Key}

theorem walk_of_fault
    {fault : Fault}
    (noKey : target.key = .error fault) :
    walk steps (target :: rest) marked = .error fault := by
  rw [walk, noKey]

theorem walk_of_marked
    (keyed : target.key = .ok key)
    (isMarked : key ∈ marked) :
    walk steps (target :: rest) marked = walk steps rest marked := by
  rw [walk, keyed]
  exact if_pos isMarked

theorem walk_of_unknown
    (keyed : target.key = .ok key)
    (unknown : lookup steps key = none) :
    walk steps (target :: rest) marked = walk steps rest marked := by
  rw [walk, keyed]
  dsimp only
  split
  · rfl
  · split
    · rfl
    · rename_i found
      rw [unknown] at found
      cases found

/-- A walk to a node that was not marked goes on with what the node leads to. -/
theorem walk_of_fresh
    {step : Step}
    (keyed : target.key = .ok key)
    (fresh : key ∉ marked)
    (stands : StandsFor steps key step) :
    walk steps (target :: rest) marked =
      targets step >>= fun next =>
        walk steps (next ++ rest) (step.key :: marked) >>= fun ended =>
          .ok (step :: ended.1, ended.2) := by
  rw [walk, keyed]
  dsimp only
  rw [if_neg fresh]
  split
  · rename_i found
    rw [stands.found] at found
    cases found
  · rename_i other found
    rw [stands.found] at found
    cases found
    rw [if_pos stands.truthy]
    cases targets step with
    | error fault =>
        rfl
    | ok next =>
        simp only [Bind.bind, Except.bind]
        cases walk steps (next ++ rest) (step.key :: marked) <;> rfl

end Walking

/-- A renaming of texts that are not empty: different ones stay different. -/
structure Renaming where
  rename : {text : String // text ≠ ""} → {text : String // text ≠ ""}
  injective : Function.Injective rename

namespace Renaming

variable (names : Renaming)

/-- A text under its new name; the empty text names nothing and stays. -/
def text (content : String) : String :=
  if notEmpty : content ≠ "" then (names.rename ⟨content, notEmpty⟩).1 else ""

/-- A target under its new name; only texts are names. -/
def target : Value → Value
  | .text content => .text (names.text content)
  | other => other

/-- A key under its new name. -/
def key : Key → Key
  | .text content => .text (names.text content)
  | other => other

/-- A link to the new name. -/
def link : Link → Link
  | .field target => .field (names.target target)
  | .direct id => .direct (names.text id)

variable {names} in
theorem text_of_ne
    {content : String}
    (notEmpty : content ≠ "") :
    names.text content = (names.rename ⟨content, notEmpty⟩).1 :=
  dif_pos notEmpty

@[simp] theorem text_empty :
    names.text "" = "" :=
  rfl

@[simp] theorem text_eq_empty
    (content : String) :
    names.text content = "" ↔ content = "" := by
  constructor
  · intro isEmpty
    by_contra notEmpty
    rw [text_of_ne notEmpty] at isEmpty
    exact (names.rename ⟨content, notEmpty⟩).2 isEmpty
  · rintro rfl
    exact names.text_empty

theorem text_injective :
    Function.Injective names.text := by
  intro first second same
  by_cases isEmpty : first = ""
  · rw [isEmpty, text_empty, eq_comm, text_eq_empty] at same
    rw [isEmpty, same]
  · have notEmpty : second ≠ "" := by
      rintro rfl
      exact isEmpty ((names.text_eq_empty first).mp same)
    rw [text_of_ne isEmpty, text_of_ne notEmpty] at same
    exact congrArg Subtype.val (names.injective (Subtype.ext same))

/-- The renaming that leaves all names as they are. -/
def same : Renaming where
  rename := id
  injective := Function.injective_id

theorem text_same
    (content : String) :
    same.text content = content := by
  by_cases isEmpty : content = ""
  · rw [isEmpty, text_empty]
  · exact text_of_ne isEmpty

theorem link_same :
    same.link = id := by
  have targetIs : ∀ value, same.target value = value := by
    intro value
    cases value with
    | text content =>
        exact congrArg Value.text (text_same content)
    | _ =>
        rfl
  funext link
  cases link with
  | field target =>
      exact congrArg Link.field (targetIs target)
  | direct id =>
      exact congrArg Link.direct (text_same id)

theorem key_injective :
    Function.Injective names.key := by
  intro first second same
  cases first <;> cases second <;> simp_all [key, names.text_injective.eq_iff]

/-- Only texts have texts for keys, so renaming a target renames its key. -/
theorem key?_target
    (value : Value) :
    (names.target value).key? = value.key?.map names.key := by
  have unchanged : (∀ content, value ≠ .text content) →
      value.key?.map names.key = value.key? := by
    intro notText
    cases keyed : value.key? with
    | none =>
        rfl
    | some other =>
        cases other with
        | text content =>
            exact absurd (Value.key?_eq_text.mp keyed) (notText content)
        | _ =>
            rfl
  cases value with
  | text content =>
      rfl
  | _ =>
      exact (unchanged (by simp)).symm

theorem key_target
    (value : Value) :
    (names.target value).key = value.key.map names.key := by
  have sameKind : (names.target value).kind = value.kind := by
    cases value <;> rfl
  rw [Value.key, Value.key, key?_target, sameKind]
  cases value.key? <;> rfl

theorem isTruthy_target
    (value : Value) :
    (names.target value).isTruthy = value.isTruthy := by
  cases value with
  | text content =>
      simp only [target, Value.isTruthy, bne, Bool.not_eq_eq_eq_not,
        Bool.not_not]
      rw [Bool.eq_iff_iff, beq_iff_eq, beq_iff_eq, text_eq_empty]
  | _ =>
      rfl

theorem isSame_key
    (first second : Key) :
    (names.key first).isSame (names.key second) = first.isSame second := by
  have sameNan : names.key first = .nan ↔ first = .nan :=
    names.key_injective.eq_iff' rfl
  rw [Bool.eq_iff_iff]
  simp only [Key.isSame, Bool.and_eq_true, beq_iff_eq, bne_iff_ne, ne_eq,
    names.key_injective.eq_iff, sameNan]

theorem pointsTo_link
    (link : Link)
    (key : Key) :
    (names.link link).pointsTo (names.key key) = link.pointsTo key := by
  cases link with
  | field target =>
      simp only [Renaming.link, Link.pointsTo, key?_target]
      cases target.key? with
      | none =>
          rfl
      | some other =>
          exact names.isSame_key other key
  | direct id =>
      exact names.isSame_key (.text id) key

theorem target?_link
    (link : Link) :
    (names.link link).target? = link.target?.map names.target := by
  cases link with
  | field target =>
      simp only [Renaming.link, Link.target?, isTruthy_target]
      split <;> rfl
  | direct id =>
      rfl

/--
Two nodes that correspond: the id and the links of the second are those of the
first renamed.
-/
structure Corresponds (node other : Value) : Prop where
  ids : ∃ id, textId? node = some id ∧ textId? other = some (names.text id)
  types : hasStartType other = hasStartType node
  links : linksOf other = (linksOf node).map (List.map names.link)

/-- Two numbered nodes that correspond, at the same position. -/
structure StepCorresponds (step other : Step) : Prop where
  position : other.position = step.position
  key : other.key = names.key step.key
  node : names.Corresponds step.node other.node

variable {names}

section Steps

variable {target : Value} {key : Key}
variable {step other : Step} {steps others : List Step}

theorem StepCorresponds.isTruthy
    (corresponds : names.StepCorresponds step other) :
    step.node.isTruthy = true ∧ other.node.isTruthy = true := by
  obtain ⟨id, isId, isOtherId⟩ := corresponds.node.ids
  exact ⟨isTruthy_of_textId? isId, isTruthy_of_textId? isOtherId⟩

theorem StepCorresponds.targets
    (corresponds : names.StepCorresponds step other) :
    targets other = (targets step).map (List.map names.target) := by
  rw [ExecutionOrder.targets, ExecutionOrder.targets, corresponds.node.links]
  cases linksOf step.node with
  | error fault =>
      rfl
  | ok links =>
      simp [bind, Except.bind, pure, Except.pure, Except.map,
        List.filterMap_map, List.map_filterMap, target?_link]

/-- Nodes that correspond are numbered alike. -/
theorem exists_stepsFrom
    {nodes otherNodes : List Value}
    (correspond : List.Forall₂ names.Corresponds nodes otherNodes)
    (position : Nat) :
    ∃ steps others,
      stepsFrom position nodes = .ok steps ∧
      stepsFrom position otherNodes = .ok others ∧
        List.Forall₂ names.StepCorresponds steps others := by
  induction correspond generalizing position with
  | nil =>
      exact ⟨[], [], rfl, rfl, .nil⟩
  | @cons node otherNode nodes otherNodes corresponds _ inductionHypothesis =>
      obtain ⟨steps, others, numbered, otherNumbered, restCorrespond⟩ :=
        inductionHypothesis (position + 1)
      obtain ⟨id, isId, isOtherId⟩ := corresponds.ids
      refine ⟨⟨position, .text id, node⟩ :: steps,
        ⟨position, .text (names.text id), otherNode⟩ :: others, ?_, ?_,
        .cons ⟨rfl, rfl, corresponds⟩ restCorrespond⟩
      · simp only [stepsFrom, bind_eq_ok, pure_eq_ok, Value.get_eq_ok,
          Value.key_eq_ok]
        exact ⟨_, ⟨kind_of_textId? isId, rfl⟩, _, idKey?_of_textId? isId, _,
          numbered, rfl⟩
      · simp only [stepsFrom, bind_eq_ok, pure_eq_ok, Value.get_eq_ok,
          Value.key_eq_ok]
        exact ⟨_, ⟨kind_of_textId? isOtherId, rfl⟩, _,
          idKey?_of_textId? isOtherId, _, otherNumbered, rfl⟩

/-- Something leads to a key exactly if something leads to its new name. -/
theorem hasIncoming_eq
    (correspond : List.Forall₂ names.StepCorresponds steps others)
    (key : Key) :
    hasIncoming (names.key key) others = hasIncoming key steps := by
  induction correspond with
  | nil =>
      rfl
  | cons corresponds _ inductionHypothesis =>
      rw [hasIncoming, hasIncoming, corresponds.node.links]
      cases linksOf _ with
      | error fault =>
          rfl
      | ok links =>
          simp only [Except.map, bind, Except.bind, List.any_map,
            Function.comp_def, pointsTo_link]
          rw [inductionHypothesis]

/-- The start nodes among some correspond to those among the renamed ones. -/
theorem endAlike_startsAmong
    {all otherAll : List Step}
    (allCorrespond : List.Forall₂ names.StepCorresponds all otherAll)
    (correspond : List.Forall₂ names.StepCorresponds steps others) :
    EndAlike (List.Forall₂ names.StepCorresponds)
      (startsAmong all steps) (startsAmong otherAll others) := by
  induction correspond with
  | nil =>
      exact .ok .nil
  | @cons step other steps others corresponds _ inductionHypothesis =>
      rw [startsAmong, startsAmong, corresponds.key,
        hasIncoming_eq allCorrespond, corresponds.node.types]
      refine .bind (.refl (hasIncoming step.key all)) ?_
      rintro incoming _ rfl
      refine .bind (.refl (hasStartType step.node)) ?_
      rintro typed _ rfl
      refine inductionHypothesis.bind fun found otherFound foundCorrespond =>
        .ok ?_
      by_cases isStart : (typed || !incoming) = true
      · rw [if_pos isStart, if_pos isStart]
        exact .cons corresponds foundCorrespond
      · rw [if_neg isStart, if_neg isStart]
        exact foundCorrespond

theorem endAlike_starts
    (correspond : List.Forall₂ names.StepCorresponds steps others) :
    EndAlike (List.Forall₂ names.StepCorresponds) (starts steps)
      (starts others) := by
  refine EndAlike.bind (endAlike_startsAmong correspond correspond) ?_
  intro found otherFound foundCorrespond
  refine .ok ?_
  cases foundCorrespond with
  | nil =>
      exact List.forall₂_take 1 correspond
  | cons corresponds rest =>
      exact .cons corresponds rest

/-- The walks start from the same ids, under their new names. -/
theorem endAlike_startIds
    (correspond : List.Forall₂ names.StepCorresponds steps others) :
    EndAlike (fun ids otherIds => otherIds = ids.map names.target)
      (startIds steps) (startIds others) := by
  refine EndAlike.bind (endAlike_starts correspond)
    fun chosen otherChosen chosenCorrespond => ?_
  induction chosenCorrespond with
  | nil =>
      exact .ok rfl
  | @cons step other chosen otherChosen corresponds _ inductionHypothesis =>
      obtain ⟨id, isId, isOtherId⟩ := corresponds.node.ids
      rw [List.mapM_cons, List.mapM_cons, get_of_textId? isId,
        get_of_textId? isOtherId]
      have first : EndAlike (fun one another => another = names.target one)
          (.ok (.text id)) (.ok (.text (names.text id)) : Except Fault Value) :=
        .ok rfl
      refine first.bind fun _ _ sameFirst =>
        inductionHypothesis.bind fun ids otherIds same => ?_
      rw [sameFirst, same]
      exact .ok rfl

/--
A key stands for a node exactly if its new name stands for one that
corresponds.
-/
theorem lookup_cases
    (correspond : List.Forall₂ names.StepCorresponds steps others)
    (key : Key) :
    (lookup steps key = none ∧ lookup others (names.key key) = none) ∨
      ∃ step other, names.StepCorresponds step other ∧
        lookup steps key = some step ∧
        lookup others (names.key key) = some other := by
  have sameKey : ∀ step other, names.StepCorresponds step other →
      ((step.key == key) = true ↔ (other.key == names.key key) = true) := by
    intro step other corresponds
    rw [beq_iff_eq, beq_iff_eq, corresponds.key, names.key_injective.eq_iff]
  have filtered := List.rel_filter (fun {step other} => sameKey step other)
    (List.rel_reverse correspond)
  -- The node that a key stands for is the first one from the end that has it.
  have isFirst : ∀ (steps : List Step) key, lookup steps key =
      (steps.reverse.filter fun step => step.key == key).head? :=
    fun steps key => List.head?_filter.symm
  rw [isFirst steps, isFirst others]
  generalize steps.reverse.filter _ = kept at filtered
  generalize others.reverse.filter _ = otherKept at filtered
  cases filtered with
  | nil =>
      exact .inl ⟨rfl, rfl⟩
  | cons corresponds _ =>
      exact .inr ⟨_, _, corresponds, rfl, rfl⟩

theorem key_target_of_key
    (keyed : target.key = .ok key) :
    (names.target target).key = .ok (names.key key) := by
  rw [key_target, keyed]
  rfl

/--
A walk to the new name of a node that was not marked goes on to the new names
of its targets.
-/
theorem exists_walk_of_fresh
    {rest : List Value}
    {marked : List Key}
    (correspond : List.Forall₂ names.StepCorresponds steps others)
    (keyed : target.key = .ok key)
    (fresh : key ∉ marked)
    (found : lookup steps key = some step) :
    ∃ other, names.StepCorresponds step other ∧
      walk others ((target :: rest).map names.target) (marked.map names.key) =
        targets step >>= fun next =>
          walk others ((next ++ rest).map names.target)
            ((step.key :: marked).map names.key) >>=
            fun ended => .ok (other :: ended.1, ended.2) := by
  obtain ⟨notFound, _⟩ | ⟨same, other, corresponds, alsoFound, otherFound⟩ :=
    lookup_cases correspond key
  · rw [found] at notFound
    cases notFound
  · rw [found] at alsoFound
    cases alsoFound
    have otherFresh : names.key key ∉ marked.map names.key :=
      (List.mem_map_of_injective names.key_injective).not.mpr fresh
    refine ⟨other, corresponds, ?_⟩
    rw [List.map_cons, walk_of_fresh (key_target_of_key keyed) otherFresh
      ⟨otherFound, corresponds.isTruthy.2⟩, corresponds.targets,
      corresponds.key]
    cases targets step with
    | error fault =>
        rfl
    | ok next =>
        simp only [Except.map, bind, Except.bind, List.map_append,
          List.map_cons]

/--
Two ends of walks that correspond: the nodes reached do in order, and the same
keys are marked.
-/
def WalksCorrespond
    (names : Renaming)
    (ended otherEnded : List Step × List Key) :
    Prop :=
  List.Forall₂ names.StepCorresponds ended.1 otherEnded.1 ∧
    otherEnded.2 = ended.2.map names.key

/--
Walks to a node that was not marked end alike if those that go on from it do.
-/
theorem endAlike_walk_of_fresh
    {rest next : List Value}
    {marked : List Key}
    (correspond : List.Forall₂ names.StepCorresponds steps others)
    (keyed : target.key = .ok key)
    (fresh : key ∉ marked)
    (found : lookup steps key = some step)
    (leads : targets step = .ok next)
    (onward : EndAlike names.WalksCorrespond
      (walk steps (next ++ rest) (step.key :: marked))
      (walk others ((next ++ rest).map names.target)
        ((step.key :: marked).map names.key))) :
    EndAlike names.WalksCorrespond
      (walk steps (next ++ rest) (step.key :: marked) >>= fun ended =>
        .ok (step :: ended.1, ended.2))
      (walk others ((target :: rest).map names.target)
        (marked.map names.key)) := by
  obtain ⟨other, corresponds, walked⟩ :=
    @exists_walk_of_fresh names target key step steps others rest marked
      correspond keyed fresh found
  rw [walked, leads]
  exact onward.bind fun _ _ related =>
    .ok ⟨.cons corresponds related.1, related.2⟩

/--
Walks among nodes that correspond, to the same targets under their new names,
end alike.
-/
theorem endAlike_walk
    (correspond : List.Forall₂ names.StepCorresponds steps others)
    (pending : List Value)
    (marked : List Key) :
    EndAlike names.WalksCorrespond (walk steps pending marked)
      (walk others (pending.map names.target) (marked.map names.key)) := by
  fun_induction walk steps pending marked with
  | case1 marked =>
      rw [List.map_nil, walk]
      exact .ok ⟨.nil, rfl⟩
  | case2 marked target rest fault noKey =>
      rw [List.map_cons, walk_of_fault (by rw [key_target, noKey]; rfl)]
      exact .error fault
  | case3 marked target rest key keyed isMarked inductionHypothesis =>
      rw [List.map_cons,
        walk_of_marked (key_target_of_key keyed) (List.mem_map_of_mem isMarked)]
      exact inductionHypothesis
  | case4 marked target rest key keyed notMarked notFound inductionHypothesis =>
      obtain ⟨_, unknown⟩ | ⟨step, other, _, found, _⟩ :=
        lookup_cases correspond key
      · rw [List.map_cons, walk_of_unknown (key_target_of_key keyed) unknown]
        exact inductionHypothesis
      · rw [notFound] at found
        cases found
  | case5 marked target rest key keyed notMarked step found truthy fault
      noTargets =>
      obtain ⟨other, _, walked⟩ :=
        exists_walk_of_fresh correspond keyed notMarked found
      rw [walked, noTargets]
      exact .error fault
  | case6 marked target rest key keyed notMarked step found truthy next leads
      fault failed inductionHypothesis =>
      have alike := endAlike_walk_of_fresh correspond keyed notMarked found
        leads inductionHypothesis
      rw [failed] at alike
      exact alike
  | case7 marked target rest key keyed notMarked step found truthy next leads
      later after ended inductionHypothesis =>
      have alike := endAlike_walk_of_fresh correspond keyed notMarked found
        leads inductionHypothesis
      rw [ended] at alike
      exact alike
  | case8 marked target rest key keyed notMarked step found notTruthy
      inductionHypothesis =>
      obtain ⟨notFound, _⟩ | ⟨same, other, corresponds, alsoFound, _⟩ :=
        lookup_cases correspond key
      · rw [found] at notFound
        cases notFound
      · rw [found] at alsoFound
        cases alsoFound
        exact absurd corresponds.isTruthy.1 notTruthy

theorem map_position_eq
    (correspond : List.Forall₂ names.StepCorresponds steps others) :
    others.map Step.position = steps.map Step.position := by
  induction correspond with
  | nil =>
      rfl
  | cons corresponds _ inductionHypothesis =>
      rw [List.map_cons, List.map_cons, corresponds.position,
        inductionHypothesis]

theorem forall₂_unmarked
    (correspond : List.Forall₂ names.StepCorresponds steps others)
    (marked : List Key) :
    List.Forall₂ names.StepCorresponds
      (steps.filter fun step => !marked.contains step.key)
      (others.filter fun other =>
        !(marked.map names.key).contains other.key) := by
  refine List.rel_filter (fun {step other} corresponds => ?_) correspond
  dsimp only
  rw [Bool.not_eq_true', Bool.not_eq_true', List.contains_eq_mem,
    List.contains_eq_mem,
    decide_eq_false_iff_not, decide_eq_false_iff_not, corresponds.key,
    List.mem_map_of_injective names.key_injective]

end Steps

/-- Nodes that correspond come in the same order, or fault alike. -/
theorem positions_eq_of_corresponds
    {nodes others : List Value}
    (correspond : List.Forall₂ names.Corresponds nodes others) :
    positions (.list others) = positions (.list nodes) := by
  obtain ⟨steps, otherSteps, numbered, otherNumbered, stepsCorrespond⟩ :=
    exists_stepsFrom correspond 0
  rw [positions_list, positions_list, positionsOf, positionsOf, numbered,
    otherNumbered]
  apply EndAlike.eq
  refine .bind (.ok stepsCorrespond) fun steps others correspond => ?_
  refine .bind (endAlike_startIds correspond) ?_
  rintro ids _ rfl
  refine .bind (endAlike_walk correspond ids []) ?_
  rintro ⟨reached, marked⟩ ⟨otherReached, _⟩ ⟨reachedCorrespond, rfl⟩
  have inOrder :=
    List.rel_append reachedCorrespond (forall₂_unmarked correspond marked)
  exact .ok (map_position_eq inOrder)

section Connections

variable (names)

/-- A connection to the new name, in its `node` field or as a whole. -/
def connection : Value → Value
  | .object fields =>
      .object (fields.map fun field =>
        (field.1, if field.1 = "node" then names.target field.2 else field.2))
  | other => names.target other

/-- A list of connections, or a single one, to the new names. -/
def connectionList : Value → Value
  | .list items => .list (items.map names.connection)
  | other => names.connection other

/-- The lists of connections under an output, to the new names. -/
def output : Value → Value
  | .object fields =>
      .object (fields.map fun field => (field.1, names.connectionList field.2))
  | .list items => .list (items.map names.connectionList)
  | other => other

/-- The connections of a node, to the new names. -/
def connections : Value → Value
  | .object outputs =>
      .object (outputs.map fun field => (field.1, names.output field.2))
  | other => other

/--
A node under its new name: its id and the targets in its connections are
renamed, its type is kept, and its other fields are any.
-/
structure Renames (node other : Value) : Prop where
  ids : ∃ id, id ≠ "" ∧ textId? node = some id ∧
    textId? other = some (names.text id)
  types : other.field? "type" = node.field? "type"
  connected : other.field? "connections" =
    (node.field? "connections").map names.connections

theorem ofValue?_connection
    (value : Value) :
    Link.ofValue? (names.connection value) =
      (Link.ofValue? value).map names.link := by
  have getNode : ∀ fields : Fields,
      Fields.get? "node" (fields.map fun field =>
        (field.1, if field.1 = "node" then names.target field.2 else field.2)) =
      (Fields.get? "node" fields).map names.target := by
    intro fields
    induction fields with
    | nil =>
        rfl
    | cons field fields inductionHypothesis =>
        rw [List.map_cons, Fields.get?, Fields.get?, inductionHypothesis]
        by_cases isNode : field.1 = "node"
        · rw [if_pos isNode, if_pos isNode, if_pos isNode]
          rfl
        · rw [if_neg isNode, if_neg isNode]
  cases value with
  | object fields =>
      simp only [connection, Link.ofValue?, getNode, Option.map_some,
        Renaming.link]
      cases Fields.get? "node" fields <;> rfl
  | _ =>
      rfl

theorem connectionsIn_connectionList
    (list : Value) :
    connectionsIn (names.connectionList list) =
      (connectionsIn list).map names.connection := by
  cases list <;> rfl

theorem connectionLists_output
    (output : Value) :
    connectionLists (names.output output) =
      (connectionLists output).map names.connectionList := by
  cases output with
  | object fields =>
      simp [Renaming.output, connectionLists]
  | _ =>
      rfl

theorem linksIn_outputs
    (outputs : Fields) :
    linksIn (outputs.map fun field => (field.1, names.output field.2)) =
      (linksIn outputs).map names.link := by
  simp only [linksIn, List.flatMap_map, List.map_flatMap,
    connectionLists_output,
    connectionsIn_connectionList, List.filterMap_map, List.map_filterMap,
    Function.comp_def,
    ofValue?_connection]

variable {names}

/-- A node under its new name corresponds to the node. -/
theorem Renames.corresponds
    {node other : Value}
    (renames : names.Renames node other) :
    names.Corresponds node other := by
  obtain ⟨id, _, isId, isOtherId⟩ := renames.ids
  refine ⟨⟨id, isId, isOtherId⟩, ?_, ?_⟩
  · rw [hasStartType, hasStartType, Value.get_of_kind (kind_of_textId? isId),
      Value.get_of_kind (kind_of_textId? isOtherId), renames.types]
  · rw [linksOf, linksOf, Value.get_of_kind (kind_of_textId? isId),
      Value.get_of_kind (kind_of_textId? isOtherId), renames.connected]
    cases node.field? "connections" with
    | none =>
        rfl
    | some connections =>
        cases connections with
        | object outputs =>
            exact congrArg Except.ok (names.linksIn_outputs outputs)
        | _ =>
            rfl

end Connections

/--
Renaming the ids of nodes together with the targets of their connections, and
changing whatever else they hold besides their types, leaves the order of
their positions as it was.
-/
theorem positions_eq_of_renames
    {nodes others : List Value}
    (renames : List.Forall₂ names.Renames nodes others) :
    positions (.list others) = positions (.list nodes) :=
  positions_eq_of_corresponds (renames.imp fun _ _ => Renames.corresponds)

/-- The renaming that puts a letter before each name. -/
def prefixed : Renaming where
  rename text := ⟨"n" ++ text.1, by simp [String.append_eq_empty_iff]⟩
  injective first second same := by
    have sameText : "n" ++ first.1 = "n" ++ second.1 :=
      congrArg Subtype.val same
    exact Subtype.ext (String.append_right_inj "n" |>.mp sameText)

/-- A cycle with connections of several shapes, and a target that is no id. -/
def roundNodes : List Value :=
  [.object [("id", .text "b"),
     ("connections", .object [("main",
       .object [("0", .list [.text "c", .text ""])])])],
   .object [("id", .text "a"), ("type", .text "flow.start"),
     ("connections", .object
       [("main", .list [.list [.object [("node", .text "b"), ("index", .int 0)],
         .object [("node", .int 7)]]])])],
   .object [("id", .text "c"),
     ("connections", .object [("main", .object [("node", .text "a")])])]]

/-- The same nodes under other names, with other fields. -/
def renamedRoundNodes : List Value :=
  [.object [("name", .text "Beta"), ("id", .text "nb"),
     ("connections", .object [("main",
       .object [("0", .list [.text "nc", .text ""])])])],
   .object [("connections", .object
       [("main", .list [.list [.object
         [("node", .text "nb"), ("index", .int 0)],
         .object [("node", .int 7)]]])]),
     ("type", .text "flow.start"), ("id", .text "na")],
   .object [("id", .text "nc"), ("parameters", .null),
     ("connections", .object [("main", .object [("node", .text "na")])])]]

theorem positions_eq_of_renames_roundNodes :
    List.Forall₂ prefixed.Renames roundNodes renamedRoundNodes ∧
      positions (.list renamedRoundNodes) = .ok [1, 0, 2] := by
  have renames : List.Forall₂ prefixed.Renames roundNodes renamedRoundNodes :=
    .cons ⟨⟨"b", by decide, rfl, rfl⟩, rfl, rfl⟩
      (.cons ⟨⟨"a", by decide, rfl, rfl⟩, rfl, rfl⟩
        (.cons ⟨⟨"c", by decide, rfl, rfl⟩, rfl, rfl⟩ .nil))
  refine ⟨renames, (positions_eq_of_renames renames).trans ?_⟩
  cbv

end Renaming

end ExecutionOrder

end Flowgen
