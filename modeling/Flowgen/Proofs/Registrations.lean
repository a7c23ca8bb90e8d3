import Flowgen.Proofs.Computations
import Flowgen.Proofs.Substitutions

namespace Flowgen

/-!
# The names that a translator registers

A translator of expressions remembers the names that it meets.  Which ones a
call registers depends on its text alone, also where the call faults after
some of them.  After any calls the parameters are those at the start and then
the new names in the order in which they were first registered, and the used
names are all that were registered.
-/

namespace Scope

variable {scope : Scope} {name : String} {names : List String}
  {parameters : Fields}

theorem get?_eq_none_iff :
    Fields.get? name parameters = none ↔ name ∉ parameters.map Prod.fst := by
  induction parameters with
  | nil =>
      simp [Fields.get?]
  | cons field parameters inductionHypothesis =>
      rw [Fields.get?, List.map_cons, List.mem_cons, not_or]
      by_cases same : field.1 = name
      · simp [same]
      · rw [if_neg same, inductionHypothesis]
        exact (and_iff_right (Ne.symm same)).symm

/--
A name is registered once among the used names, and once among the parameters.
-/
theorem register_facts
    (scope : Scope)
    (name : String) :
    (scope.register name).used =
        (if name ∈ scope.used then scope.used else scope.used ++ [name]) ∧
      (scope.register name).parameters =
        if name ∈ scope.parameters.map Prod.fst then scope.parameters
        else scope.parameters ++ [(name, .text "mixed")] := by
  refine ⟨by simp [register], ?_⟩
  rw [register]
  cases found : Fields.get? name scope.parameters with
  | some value =>
      have isKey : name ∈ scope.parameters.map Prod.fst := by
        by_contra isNew
        rw [get?_eq_none_iff.mpr isNew] at found
        cases found
      rw [if_pos isKey]
  | none =>
      rw [if_neg (get?_eq_none_iff.mp found)]

/-- The names that are not known, in the order of the first of each. -/
def unseen (known names : List String) : List String :=
  names.eraseDups.filter fun name => name ∉ known

/--
The parameters that names add to those at the start, in the order of the first
of each.
-/
def added (parameters : Fields) (names : List String) : Fields :=
  (names.eraseDups.filter fun name => name ∉ parameters.map Prod.fst).map
    fun name => (name, .text "mixed")

theorem mem_append_unseen
    {known : List String} :
    name ∈ known ++ unseen known names ↔ name ∈ known ∨ name ∈ names := by
  simp only [unseen, List.mem_append, List.mem_filter, List.mem_eraseDups,
    decide_eq_true_eq]
  tauto

theorem unseen_concat
    (known names : List String)
    (name : String) :
    unseen known (names ++ [name]) =
      if name ∈ known ++ unseen known names then unseen known names
      else unseen known names ++ [name] := by
  simp only [mem_append_unseen]
  rw [unseen, eraseDups_concat]
  by_cases member : name ∈ names
  · rw [if_pos member, if_pos (.inr member), unseen]
  · rw [if_neg member, List.filter_append, ← unseen]
    by_cases isKnown : name ∈ known
    · simp [isKnown]
    · simp [isKnown, member]

theorem keys_added
    (parameters : Fields)
    (names : List String) :
    (parameters ++ added parameters names).map Prod.fst =
      parameters.map Prod.fst ++ unseen (parameters.map Prod.fst) names := by
  simp [added, unseen, Function.comp_def]

theorem mem_keys_added :
    name ∈ (parameters ++ added parameters names).map Prod.fst ↔
      name ∈ parameters.map Prod.fst ∨ name ∈ names := by
  rw [keys_added, mem_append_unseen]

theorem added_concat
    (parameters : Fields)
    (names : List String)
    (name : String) :
    added parameters (names ++ [name]) =
      if name ∈ (parameters ++ added parameters names).map Prod.fst
        then added parameters names
      else added parameters names ++ [(name, .text "mixed")] := by
  rw [keys_added]
  change (unseen _ _).map _ = _
  rw [unseen_concat]
  split
  · rfl
  · rw [List.map_append]
    rfl

/-- What registering names one after the other comes to. -/
theorem foldl_register_eq
    (scope : Scope)
    (names : List String) :
    names.foldl register scope =
      ⟨scope.parameters ++ added scope.parameters names,
        scope.used ++ unseen scope.used names⟩ := by
  induction names using List.reverseRecOn with
  | nil =>
      simp [added, unseen]
  | append_singleton names name inductionHypothesis =>
      obtain ⟨used, parameters⟩ := register_facts
        ⟨scope.parameters ++ added scope.parameters names,
          scope.used ++ unseen scope.used names⟩ name
      dsimp only at used parameters
      rw [List.foldl_append, inductionHypothesis, List.foldl_cons,
        List.foldl_nil, unseen_concat,
        added_concat, apply_ite (scope.used ++ ·),
        apply_ite (scope.parameters ++ ·),
        ← List.append_assoc, ← List.append_assoc, ← used, ← parameters]

theorem foldl_register
    (parameters : Fields)
    (names : List String) :
    names.foldl register (.ofParameters parameters) =
      ⟨parameters ++ added parameters names, names.eraseDups⟩ := by
  rw [foldl_register_eq]
  simp [ofParameters, unseen]

theorem nodup_keys
    (distinct : (parameters.map Prod.fst).Nodup)
    (names : List String) :
    ((parameters ++ added parameters names).map Prod.fst).Nodup := by
  rw [keys_added]
  refine List.nodup_append'.mpr ⟨distinct, (nodup_eraseDups names).filter _, ?_⟩
  intro name isInitial isAdded
  simpa [isInitial] using (List.mem_filter.mp isAdded).2

end Scope

namespace Expression

variable {text : List Char} {scope : Scope}

/--
The name that a text registers: the first one of the access that it stands
for.
-/
def registered? (text : List Char) : Option String :=
  match (inside? (Text.trimmed text)).map meaning with
  | some (.access names) => names.head?
  | _ => none

/-- Whether a text is an expression that no access can be made for. -/
def isUnsupported (text : List Char) : Bool :=
  (inside? (Text.trimmed text)).map meaning == some .unsupported

/--
The names that a text with expressions in it registers: those of its
expressions from left to right, up to one that is not supported.  A text
without any in it is looked at as a whole.
-/
def registeredIn (text : List Char) : List String :=
  if expressionsIn text = [] then
    (registered? text).toList
  else
    ((expressionsIn text).takeWhile fun expression =>
      !isUnsupported expression).filterMap registered?

/--
Turning a text into code registers the name in it, and faults if it is not
supported.
-/
theorem renderText_registers
    (scope : Scope)
    (content : String) :
    (renderText scope content).2 =
      (registered? content.toList).toList.foldl .register scope ∧
      ((∃ fault, (renderText scope content).1 = .error fault) ↔
        isUnsupported content.toList = true) := by
  unfold renderText registered? isUnsupported
  dsimp only
  cases inside? (Text.trimmed content.toList) with
  | none =>
      simp
  | some inside =>
      cases isMeant : meaning inside with
      | access names =>
          obtain ⟨name, rest, rfl⟩ :=
            List.exists_cons_of_ne_nil (names_of_meaning isMeant).1
          simp [isMeant]
      | unsupported =>
          simp [isMeant]
      | plain =>
          simp [isMeant]

/--
Putting code in the place of expressions registers their names up to an
unsupported one.
-/
theorem substitute_registers
    (scope : Scope)
    (text : List Char)
    (expressions : List (List Char)) :
    (substitute scope text expressions).2 =
      ((expressions.takeWhile fun expression =>
        !isUnsupported expression).filterMap
        registered?).foldl .register scope := by
  induction expressions generalizing scope text with
  | nil =>
      rfl
  | cons expression expressions inductionHypothesis =>
      obtain ⟨registers, faults⟩ :=
        renderText_registers scope (String.ofList expression)
      rw [String.toList_ofList] at registers faults
      rw [substitute]
      split
      · rename_i fault after rendered
        rw [rendered] at registers faults
        have notSupported := faults.mp ⟨fault, rfl⟩
        have none : registered? expression = none := by
          rw [isUnsupported, beq_iff_eq] at notSupported
          rw [registered?, notSupported]
        rw [List.takeWhile_cons_of_neg (by simp [notSupported])]
        simpa [none] using registers
      · rename_i code after rendered
        rw [rendered] at registers faults
        have isSupported : isUnsupported expression = false := by
          rw [← Bool.not_eq_true, ← faults]
          simp
        have afterIs : after = (registered? expression).toList.foldl .register
            scope := registers
        rw [inductionHypothesis,
          List.takeWhile_cons_of_pos (by simp [isSupported]),
          List.filterMap_cons, afterIs]
        cases registered? expression <;> rfl

theorem renderWhole_registers
    (scope : Scope)
    (content : String) :
    (renderWhole scope content).2 =
      (registered? content.toList).toList.foldl .register scope := by
  unfold renderWhole
  split
  · exact (renderText_registers scope content).1
  · rename_i noInside
    rw [Option.not_isSome_iff_eq_none] at noInside
    simp [registered?, noInside]

/-- Turning a text with expressions in it into code registers their names. -/
theorem renderMixed_registers
    (scope : Scope)
    (content : String) :
    (renderMixed scope content).2 =
      (registeredIn content.toList).foldl .register scope := by
  by_cases noExpression : expressionsIn content.toList = []
  · have registers := renderWhole_registers scope content
    rw [registeredIn, if_pos noExpression]
    unfold renderMixed
    dsimp only
    split
    · rw [noExpression, substitute]
      dsimp only
      rw [if_pos rfl]
      exact registers
    · exact registers
  · rw [registeredIn, if_neg noExpression, renderMixed_eq scope noExpression,
      substitute_registers]

/--
A call of a translator: for a text that may be an expression, or for one with
some in it.
-/
inductive Call where
  | whole (value : Value)
  | mixed (value : Value)

namespace Call

/-- What a call gives, with the scope after it. -/
def perform : Call → Scope → Except Fault Value × Scope
  | .whole value, scope => onText renderText scope value
  | .mixed value, scope => onText renderMixed scope value

/-- The names that a call registers, in their order. -/
def registered : Call → List String
  | .whole (.text content) => (registered? content.toList).toList
  | .mixed (.text content) => registeredIn content.toList
  | _ => []

/--
The scope after calls one after the other; a call that faults does not stop
the next ones.
-/
def run (calls : List Call) (scope : Scope) : Scope :=
  calls.foldl (fun scope call => (call.perform scope).2) scope

/--
A call leaves the scope with its names registered, whether it faults or not.
-/
theorem perform_registers
    (call : Call)
    (scope : Scope) :
    (call.perform scope).2 = call.registered.foldl .register scope := by
  cases call with
  | whole value =>
      cases value with
      | text content =>
          exact (renderText_registers scope content).1
      | _ =>
          rfl
  | mixed value =>
      cases value with
      | text content =>
          exact renderMixed_registers scope content
      | _ =>
          rfl

/-- Calls leave the scope with all their names registered. -/
theorem run_registers
    (calls : List Call)
    (scope : Scope) :
    run calls scope = (calls.flatMap registered).foldl .register scope := by
  induction calls generalizing scope with
  | nil =>
      rfl
  | cons call calls inductionHypothesis =>
      have step :
          run (call :: calls) scope = run calls (call.perform scope).2 := rfl
      rw [step, inductionHypothesis, perform_registers, List.flatMap_cons,
        List.foldl_append]

/--
Each call registers names that its text alone decides.  After any calls, the
parameters are those at the start and then the registered names that are not
among them, in the order in which they were first registered and each of any
type; no parameter comes twice.  The used names are the registered ones: each
is a parameter, and later calls forget none.
-/
theorem run_collects_registered
    {initial : Fields}
    (distinct : (initial.map Prod.fst).Nodup)
    (calls : List Call) :
    (∀ call ∈ calls, ∀ scope,
      (call.perform scope).2 = call.registered.foldl .register scope) ∧
    (run calls (.ofParameters initial)).parameters =
      initial ++ ((calls.flatMap registered).eraseDups.filter
        fun name => name ∉ initial.map Prod.fst).map
          (fun name => (name, .text "mixed")) ∧
    ((run calls (.ofParameters initial)).parameters.map Prod.fst).Nodup ∧
    (run calls (.ofParameters initial)).used.Nodup ∧
    (∀ name, name ∈ (run calls (.ofParameters initial)).used ↔
      ∃ call ∈ calls, name ∈ call.registered) ∧
    (run calls (.ofParameters initial)).used ⊆
      (run calls (.ofParameters initial)).parameters.map Prod.fst ∧
    ∀ later, (run calls (.ofParameters initial)).used ⊆
      (run (calls ++ later) (.ofParameters initial)).used := by
  have scopeIs : ∀ calls, run calls (.ofParameters initial) =
      ⟨initial ++ Scope.added initial (calls.flatMap registered),
        (calls.flatMap registered).eraseDups⟩ := by
    intro calls
    rw [run_registers, Scope.foldl_register]
  have usedIs : ∀ calls name, name ∈ (run calls (.ofParameters initial)).used ↔
      ∃ call ∈ calls, name ∈ call.registered := by
    intro calls name
    rw [scopeIs, List.mem_eraseDups, List.mem_flatMap]
  refine ⟨fun call _ => call.perform_registers, ?_, ?_, ?_, usedIs calls, ?_,
    ?_⟩
  · rw [scopeIs, Scope.added]
  · rw [scopeIs]
    exact Scope.nodup_keys distinct _
  · rw [scopeIs]
    exact nodup_eraseDups _
  · intro name isUsed
    rw [usedIs, ← List.mem_flatMap] at isUsed
    rw [scopeIs]
    exact Scope.mem_keys_added.mpr (.inr isUsed)
  · intro later name isUsed
    obtain ⟨call, member, isRegistered⟩ := (usedIs calls name).mp isUsed
    exact (usedIs (calls ++ later) name).mpr
      ⟨call, List.mem_append_left later member, isRegistered⟩

/--
A call that faults at its second expression, and then one for a parameter that
is known.
-/
def haltedCalls : List Call :=
  [.mixed
    (.text
    "=\x7b\x7b $json.body.msg \x7d\x7d, =\x7b\x7b item.query.id \x7d\x7d"),
   .whole (.text "=\x7b\x7b $json.query.id \x7d\x7d")]

/-- The name before the fault stays registered. -/
theorem run_haltedCalls_collects :
    ([("id", Value.text "string")].map Prod.fst).Nodup ∧
    (haltedCalls.flatMap registered = ["msg", "id"]) ∧
    (run haltedCalls (.ofParameters [("id", .text "string")])).parameters =
      [("id", .text "string")] ++
      ((haltedCalls.flatMap registered).eraseDups.filter
        fun name => name ∉ [("id", Value.text "string")].map Prod.fst).map
          (fun name => (name, .text "mixed")) ∧
    (run haltedCalls (.ofParameters [("id", .text "string")])).used ⊆
      (run haltedCalls (.ofParameters [("id", .text "string")])).parameters.map
        Prod.fst := by
  have distinct : ([("id", Value.text "string")].map Prod.fst).Nodup := by
    decide
  obtain ⟨_, parametersAre, _, _, _, areParameters, _⟩ :=
    run_collects_registered distinct haltedCalls
  exact ⟨distinct, by decide +kernel, parametersAre, areParameters⟩

end Call

end Expression

end Flowgen
