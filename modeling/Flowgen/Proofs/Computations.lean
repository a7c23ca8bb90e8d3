import Flowgen.Session
import Flowgen.Value.Access
import Mathlib.Data.List.Induction
import Mathlib.Data.List.Nodup
import Mathlib.Tactic.Choose

namespace Flowgen

/-!
# Computations that end well

A computation that may fault ends well if all its parts do.  A session that only
reads files and prints has an outcome that depends on the files alone.
-/

theorem eraseDups_concat
    (names : List String)
    (name : String) :
    (names ++ [name]).eraseDups =
      if name ∈ names then names.eraseDups else names.eraseDups ++ [name] := by
  rw [List.eraseDups_append]
  by_cases member : name ∈ names
  · simp [List.removeAll, member]
  · simp [List.removeAll, member, List.eraseDups_cons]

theorem nodup_eraseDups
    (names : List String) :
    names.eraseDups.Nodup := by
  induction names using List.reverseRecOn with
  | nil =>
      exact List.nodup_nil
  | append_singleton names name inductionHypothesis =>
      rw [eraseDups_concat]
      split
      · exact inductionHypothesis
      · rename_i isNew
        rw [← List.concat_eq_append]
        exact inductionHypothesis.concat (mt List.mem_eraseDups.mp isNew)

theorem bind_eq_ok
    {first : Except ε α}
    {second : α → Except ε β}
    {result : β} :
    (first >>= second) = .ok result ↔
      ∃ middle, first = .ok middle ∧ second middle = .ok result := by
  cases first with
  | error fault =>
      simp [bind, Except.bind]
  | ok middle =>
      simp [bind, Except.bind]

@[simp] theorem pure_eq_ok
    {value result : α} :
    (pure value : Except ε α) = .ok result ↔ value = result := by
  simp [pure, Except.pure]

theorem exists_eq_ok_of_isOk
    {computation : Except ε α}
    (isOk : computation.isOk = true) :
    ∃ result, computation = .ok result := by
  cases computation with
  | error fault =>
      cases isOk
  | ok result =>
      exact ⟨result, rfl⟩

theorem eq_ok_of_toOption
    {result : Except ε α}
    {value : α}
    (found : result.toOption = some value) :
    result = .ok value := by
  cases result with
  | error =>
      cases found
  | ok other =>
      cases found
      rfl

theorem Value.get_eq_ok
    {value fallback result : Value}
    {name : String} :
    value.get name fallback = .ok result ↔
      value.kind = .object ∧ (value.field? name).getD fallback = result := by
  cases value <;> simp [Value.get, Value.kind, Value.field?]

/--
What follows a field that is read goes on with the field, or what stands in
its place.
-/
theorem Value.eq_ok_of_get_bind
    {value fallback : Value}
    {name : String}
    {next : Value → Except Fault α}
    {result : α}
    (made : (value.get name fallback >>= next) = .ok result) :
    next ((value.field? name).getD fallback) = .ok result := by
  obtain ⟨_, got, made⟩ := bind_eq_ok.mp made
  obtain ⟨_, rfl⟩ := Value.get_eq_ok.mp got
  exact made

theorem Value.textFor_eq_ok
    {value : Value}
    {operation : Operation}
    {content : String} :
    value.textFor operation = .ok content ↔ value = .text content := by
  cases value <;> simp [Value.textFor]

theorem Value.textAs_eq_ok
    {value : Value}
    {argument : TextArgument}
    {content : String} :
    value.textAs argument = .ok content ↔ value = .text content := by
  cases value <;> simp [Value.textAs]

theorem Value.fieldsFor_eq_ok
    {value : Value}
    {operation : Operation}
    {fields : Fields} :
    value.fieldsFor operation = .ok fields ↔ value = .object fields := by
  cases value <;> simp [Value.fieldsFor]

namespace Session

variable {host after : Host}

@[simp] theorem start_pure
    (value : α) :
    (pure value : Session α).start host = (.ok value, host) :=
  rfl

@[simp] theorem start_lift
    (result : Except Fault α) :
    (liftM result : Session α).start host = (result, host) := by
  cases result <;> rfl

theorem start_bind
    (first : Session α)
    (second : α → Session β) :
    (first >>= second).start host =
      match first.start host with
      | (.ok value, between) => (second value).start between
      | (.error fault, between) => (.error fault, between) := by
  simp only [start, ExceptT.run, bind, ExceptT.bind, ExceptT.mk, StateT.run,
    StateT.bind]
  rcases first host with ⟨value | fault, between⟩ <;> rfl

theorem bind_start_eq_ok
    {first : Session α}
    {second : α → Session β}
    {result : β} :
    (first >>= second).start host = (.ok result, after) ↔
      ∃ value between, first.start host = (.ok value, between) ∧
        (second value).start between = (.ok result, after) := by
  rw [start_bind]
  rcases first.start host with ⟨fault | value, between⟩
  · simp
  · simp only [Prod.mk.injEq, Except.ok.injEq]
    refine ⟨fun rest => ⟨value, between, ⟨rfl, rfl⟩, rest⟩, ?_⟩
    rintro ⟨_, _, ⟨rfl, rfl⟩, rest⟩
    exact rest

theorem lift_bind_start_eq_ok
    {first : Except Fault α}
    {second : α → Session β}
    {result : β} :
    ((liftM first : Session α) >>= second).start host = (.ok result, after) ↔
      ∃ value, first = .ok value ∧
      (second value).start host = (.ok result, after) := by
  rw [start_bind, start_lift]
  cases first with
  | error fault =>
      simp
  | ok value =>
      simp

theorem start_guarded
    (session : Session α)
    (handler : Fault → Session α) :
    (guarded session handler).start host =
      match session.start host with
      | (.ok value, between) => (.ok value, between)
      | (.error fault, between) =>
          if fault.isUncatchable then (.error fault, between)
            else (handler fault).start between := by
  simp only [guarded, start, ExceptT.run, tryCatch, tryCatchThe,
    MonadExceptOf.tryCatch,
    ExceptT.tryCatch, ExceptT.mk, StateT.run, bind, StateT.bind]
  rcases session host with ⟨fault | value, between⟩
  · dsimp only
    split <;> rfl
  · rfl

/--
Two hosts with the same files, on which sets are walked through in the same
way.
-/
structure Alike (host other : Host) : Prop where
  files : host.files = other.files
  setOrder : host.setOrder = other.setOrder

namespace Alike

variable {host other another : Host}

theorem refl
    (host : Host) :
    Alike host host :=
  ⟨rfl, rfl⟩

theorem symm
    (alike : Alike host other) :
    Alike other host :=
  ⟨alike.files.symm, alike.setOrder.symm⟩

theorem trans
    (first : Alike host other)
    (second : Alike other another) :
    Alike host another :=
  ⟨first.files.trans second.files, first.setOrder.trans second.setOrder⟩

end Alike

/--
A session that only reads files and prints: its outcome depends on the files and
on how sets are walked through, and the output is all that it changes.
-/
def Reports (session : Session α) : Prop :=
  ∀ order : SetOrder,
    ∃ outcome : FileTree → Except Fault α, ∃ printed : FileTree → String,
      ∀ host : Host, host.setOrder = order → session.start host =
        (outcome host.files, { host with
          output := host.output ++ printed host.files })

namespace Reports

variable {session : Session α}

theorem pure
    (value : α) :
    Reports (Pure.pure value : Session α) :=
  fun _ => ⟨fun _ => .ok value, fun _ => "", fun host _ => by simp⟩

theorem lift
    (result : Except Fault α) :
    Reports (liftM result : Session α) :=
  fun _ => ⟨fun _ => result, fun _ => "", fun host _ => by simp⟩

theorem print
    (text : String) :
    Reports (Session.print text) :=
  fun _ => ⟨fun _ => .ok (), fun _ => text ++ "\n", fun _ _ => rfl⟩

theorem setOrder :
    Reports Session.setOrder := by
  intro order
  refine ⟨fun _ => .ok order, fun _ => "", ?_⟩
  rintro host rfl
  rw [String.append_empty]
  rfl

theorem pathExists
    (path : Path) :
    Reports (Session.pathExists path) := by
  refine fun _ => ⟨fun files => files.has path, fun _ => "", fun host _ => ?_⟩
  have read :
      (Session.pathExists path).start host = (host.files.has path, host) :=
    start_lift (host.files.has path)
  rw [read, String.append_empty]

theorem deviceFault?
    (path : Path) :
    Reports (Session.deviceFault? path) := by
  refine fun _ => ⟨fun files => .ok (files.deviceFault? path), fun _ => "",
    fun host _ => ?_⟩
  rw [String.append_empty]
  rfl

theorem readFile
    (path : Path) :
    Reports (Session.readFile path) := by
  refine fun _ => ⟨fun files => files.read path, fun _ => "", fun host _ => ?_⟩
  have read :
      (Session.readFile path).start host = (host.files.read path, host) :=
    start_lift (host.files.read path)
  rw [read, String.append_empty]

theorem bind
    {next : α → Session β}
    (first : Reports session)
    (second : ∀ value, Reports (next value)) :
    Reports (session >>= next) := by
  intro order
  obtain ⟨outcome, printed, reported⟩ := first order
  choose outcomes printeds reporteds using fun value => second value order
  refine ⟨fun files => outcome files >>= fun value => outcomes value files,
    fun files => printed files ++
      match outcome files with
      | .ok value => printeds value files
      | .error _ => "", fun host isOrder => ?_⟩
  rw [start_bind, reported host isOrder]
  cases came : outcome host.files with
  | error fault =>
      simp [came, Bind.bind, Except.bind]
  | ok value =>
      have rest := reporteds value
        { host with output := host.output ++ printed host.files } isOrder
      simp [came, rest, Bind.bind, Except.bind, String.append_assoc]

theorem guarded
    {handler : Fault → Session α}
    (first : Reports session)
    (second : ∀ fault, Reports (handler fault)) :
    Reports (Session.guarded session handler) := by
  intro order
  obtain ⟨outcome, printed, reported⟩ := first order
  choose outcomes printeds reporteds using fun fault => second fault order
  refine ⟨fun files =>
      match outcome files with
      | .ok value => .ok value
      | .error fault =>
          if fault.isUncatchable then .error fault else outcomes fault files,
    fun files => printed files ++
      match outcome files with
      | .ok _ => ""
      | .error fault =>
          if fault.isUncatchable then "" else printeds fault files,
    fun host isOrder => ?_⟩
  rw [start_guarded, reported host isOrder]
  cases came : outcome host.files with
  | ok value =>
      simp [came]
  | error fault =>
      by_cases uncatchable : fault.isUncatchable = true
      · simp [came, uncatchable]
      · have rest := reporteds fault
          { host with output := host.output ++ printed host.files } isOrder
        simp [came, uncatchable, rest, String.append_assoc]

/-- A session that reports comes to the same on hosts that are alike. -/
theorem outcome_eq
    (reports : Reports session)
    {host other : Host}
    (alike : Alike host other) :
    (session.start host).1 = (session.start other).1 := by
  obtain ⟨outcome, printed, reported⟩ := reports other.setOrder
  rw [reported host alike.setOrder, reported other rfl, alike.files]

/-- A session that reports leaves all but the output as it is. -/
theorem exists_printed
    (reports : Reports session)
    (host : Host) :
    ∃ printed : String, (session.start host).2 =
      { host with output := host.output ++ printed } := by
  obtain ⟨outcome, printed, reported⟩ := reports host.setOrder
  exact ⟨printed host.files, by rw [reported host rfl]⟩

theorem alike
    (reports : Reports session)
    (host : Host) :
    Alike (session.start host).2 host := by
  obtain ⟨printed, ended⟩ := reports.exists_printed host
  rw [ended]
  exact ⟨rfl, rfl⟩

theorem files_eq
    (reports : Reports session)
    (host : Host) :
    (session.start host).2.files = host.files :=
  (reports.alike host).files

end Reports

end Session

end Flowgen
