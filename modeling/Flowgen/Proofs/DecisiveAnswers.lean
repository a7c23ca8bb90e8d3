import Flowgen.Proofs.RequestOrder

namespace Flowgen

/-!
# Questions that one answer decides

A question is repeated until an answer decides it.  The answers before that
one are taken and change nothing but what is printed, and the answers behind
it are left.  If no answer decides, all of them are taken and the question is
asked once more.
-/

namespace Session

variable {session : Session α} {decides : Answer → α → Prop} {host : Host}
  {before rest : List Answer}

/-- Answers none of which decides. -/
def Undecided (decides : Answer → α → Prop) (answers : List Answer) : Prop :=
  ∀ answer ∈ answers, ∀ result, ¬ decides answer result

/-- A session that is decided by the first of the answers that decides. -/
structure DecidedBy (decides : Answer → α → Prop) (session : Session α) :
  Prop where
  /--
  The first answer that decides gives the result, and no answer behind it is
  taken.
  -/
  settled :
    ∀ {host : Host} {before rest : List Answer}
      {decisive : Answer} {result : α},
    host.answers = before ++ decisive :: rest →
    Undecided decides before →
    decides decisive result →
    ∃ printed, session.start host =
      (.ok result, { host with
        answers := rest, output := host.output ++ printed })
  /-- If no answer decides, all are taken and a further one is asked for. -/
  unsettled : ∀ {host : Host},
    Undecided decides host.answers →
    ∃ printed, session.start host =
      (.error .answersExhausted,
        { host with answers := [], output := host.output ++ printed })

theorem Undecided.append
    (first : Undecided decides before)
    (second : Undecided decides rest) :
    Undecided decides (before ++ rest) := by
  intro answer member
  rcases List.mem_append.mp member with inFirst | inSecond
  · exact first answer inFirst
  · exact second answer inSecond

/-- Among answers there is a first one that decides, or none does. -/
theorem undecided_or_first
    (decides : Answer → α → Prop)
    (answers : List Answer) :
    Undecided decides answers ∨
      ∃ before decisive rest result, answers = before ++ decisive :: rest ∧
        Undecided decides before ∧ decides decisive result := by
  induction answers with
  | nil =>
      exact .inl (by simp [Undecided])
  | cons answer answers inductionHypothesis =>
      by_cases isDecisive : ∃ result, decides answer result
      · obtain ⟨result, isResult⟩ := isDecisive
        exact .inr ⟨[], answer, answers, result, rfl, by simp [Undecided],
          isResult⟩
      · have alone : Undecided decides [answer] := by
          simpa [Undecided] using isDecisive
        obtain none | ⟨before, decisive, rest, result, rfl, undecided,
          isResult⟩ :=
          inductionHypothesis
        · exact .inl (alone.append none)
        · exact .inr ⟨answer :: before, decisive, rest, result, rfl,
            alone.append undecided, isResult⟩

namespace DecidedBy

/--
A decided session that returns has taken the answers up to the first that
decides.
-/
theorem exists_of_ok
    {after : Host}
    {result : α}
    (decided : DecidedBy decides session)
    (ended : session.start host = (.ok result, after)) :
    ∃ before decisive, host.answers = before ++ decisive :: after.answers ∧
      Undecided decides before ∧ decides decisive result := by
  obtain none | ⟨before, decisive, rest, other, answersAre, undecided,
    isOther⟩ :=
    undecided_or_first decides host.answers
  · obtain ⟨printed, exhausted⟩ := decided.unsettled none
    rw [exhausted] at ended
    cases congrArg Prod.fst ended
  · obtain ⟨printed, settled⟩ := decided.settled answersAre undecided isOther
    rw [settled] at ended
    cases ended
    exact ⟨before, decisive, answersAre, undecided, isOther⟩

/--
Answers that do not decide have no effect on the outcome or on what is left.
-/
theorem start_past
    (decided : DecidedBy decides session)
    (answersAre : host.answers = before ++ rest)
    (undecided : Undecided decides before) :
    (session.start host).1 = (session.start { host with answers := rest }).1 ∧
      (session.start host).2.answers =
        (session.start { host with answers := rest }).2.answers := by
  obtain none | ⟨between, decisive, left, result, rfl, undecidedBetween,
    isResult⟩ :=
    undecided_or_first decides rest
  · obtain ⟨_, exhausted⟩ :=
      decided.unsettled (answersAre ▸ undecided.append none)
    obtain ⟨_, alsoExhausted⟩ :=
      @decided.unsettled { host with answers := rest } none
    rw [exhausted, alsoExhausted]
    exact ⟨rfl, rfl⟩
  · rw [← List.append_assoc] at answersAre
    obtain ⟨_, settled⟩ :=
      decided.settled answersAre (undecided.append undecidedBetween) isResult
    obtain ⟨_, alsoSettled⟩ :=
      @decided.settled { host with answers := between ++ decisive :: left } _ _
        _ _ rfl undecidedBetween isResult
    rw [settled, alsoSettled]
    exact ⟨rfl, rfl⟩

end DecidedBy

/-- Whether answers decide can be told from what is judged of them. -/
theorem undecided_of_judge
    {judge : Answer → Verdict α}
    {answers : List Answer}
    (judged : ∀ answer result, (judge answer).result? = some result ↔
      decides answer result)
    (rejected : (answers.all fun answer => (judge answer).result?.isNone) =
      true) :
    Undecided decides answers := by
  intro answer member result isResult
  have isNone := List.all_eq_true.mp rejected answer member
  rw [(judged answer result).mpr isResult] at isNone
  cases isNone

/-- Answers after which the question is asked again only add to the output. -/
theorem start_askFrom_append
    {judge : Answer → Verdict α}
    (prompt : String)
    (answersAre : host.answers = before ++ rest)
    (again : ∀ answer ∈ before, (judge answer).result? = none) :
    ∃ printed, (askFrom prompt judge (before ++ rest)).start host =
      (askFrom prompt judge rest).start
        { host with answers := rest, output := host.output ++ printed } := by
  induction before generalizing host with
  | nil =>
      obtain rfl : host.answers = rest := answersAre
      exact ⟨"", by simp⟩
  | cons answer before inductionHypothesis =>
      obtain ⟨isAgain, restAgain⟩ := List.forall_mem_cons.mp again
      cases verdict : judge answer with
      | settled text result =>
          rw [verdict] at isAgain
          cases isAgain
      | again text =>
          -- One round prints the prompt and the text of the verdict.
          have round :
              (askFrom prompt judge (answer :: before ++ rest)).start host =
              (askFrom prompt judge (before ++ rest)).start
                { host with
                  answers := before ++ rest
                  output := host.output ++ prompt ++ text } := by
            rw [List.cons_append, askFrom, verdict]
            rfl
          obtain ⟨printed, started⟩ := @inductionHypothesis
            { host with
              answers := before ++ rest,
              output := host.output ++ prompt ++ text }
            rfl restAgain
          refine ⟨prompt ++ text ++ printed, ?_⟩
          rw [round, started]
          simp only [String.append_assoc]

/-- A question is decided by the answers that settle it. -/
theorem decidedBy_askUntil
    {judge : Answer → Verdict α}
    (prompt : String)
    (judged : ∀ answer result, (judge answer).result? = some result ↔
      decides answer result) :
    DecidedBy decides (askUntil prompt judge) := by
  have again : ∀ {answers}, Undecided decides answers →
      ∀ answer ∈ answers, (judge answer).result? = none := by
    intro answers undecided answer member
    rw [Option.eq_none_iff_forall_ne_some]
    exact fun result settled =>
      undecided answer member result ((judged answer result).mp settled)
  have started : ∀ host : Host, (askUntil prompt judge).start host =
      (askFrom prompt judge host.answers).start host :=
    fun _ => rfl
  constructor
  · intro host before rest decisive result answersAre undecided isResult
    obtain ⟨printed, passed⟩ :=
      start_askFrom_append prompt answersAre (again undecided)
    have settles := (judged decisive result).mpr isResult
    rw [started, answersAre, passed, askFrom]
    cases verdict : judge decisive with
    | again text =>
        rw [verdict] at settles
        cases settles
    | settled text other =>
        rw [verdict] at settles
        cases settles
        refine ⟨printed ++ prompt ++ text, ?_⟩
        rw [← String.append_assoc, ← String.append_assoc]
        rfl
  · intro host undecided
    obtain ⟨printed, passed⟩ :=
      start_askFrom_append prompt (List.append_nil host.answers).symm
        (again undecided)
    rw [List.append_nil] at passed
    refine ⟨printed ++ prompt, ?_⟩
    rw [started, passed, askFrom, ← String.append_assoc]
    rfl

/-- A session that returns a value and does nothing but print. -/
def Announces (value : α) (session : Session α) : Prop :=
  ∀ host : Host, ∃ printed, session.start host =
    (.ok value, { host with output := host.output ++ printed })

namespace Announces

theorem pure
    (value : α) :
    Announces value (Pure.pure value : Session α) :=
  fun _ => ⟨"", by simp⟩

theorem print
    (text : String) :
    Announces () (Session.print text) :=
  fun _ => ⟨text ++ "\n", rfl⟩

theorem lift
    {value : α}
    {result : Except Fault α}
    (isOk : result = .ok value) :
    Announces value (liftM result : Session α) := by
  intro host
  exact ⟨"", by simp [isOk]⟩

theorem bind
    {value : α}
    {other : β}
    {next : α → Session β}
    (first : Announces value session)
    (second : Announces other (next value)) :
    Announces other (session >>= next) := by
  intro host
  obtain ⟨printed, started⟩ := first host
  obtain ⟨alsoPrinted, ended⟩ :=
    second { host with output := host.output ++ printed }
  refine ⟨printed ++ alsoPrinted, ?_⟩
  rw [start_bind, started]
  simp only [ended, String.append_assoc]

theorem forM
    {items : List β}
    {action : β → Session PUnit}
    (each : ∀ item ∈ items, Announces PUnit.unit (action item)) :
    Announces PUnit.unit (items.forM action) := by
  induction items with
  | nil =>
      exact pure PUnit.unit
  | cons item items inductionHypothesis =>
      obtain ⟨first, rest⟩ := List.forall_mem_cons.mp each
      exact bind first (inductionHypothesis rest)

end Announces

/-- What is printed before a question does not change what decides it. -/
theorem DecidedBy.after_announces
    {value : β}
    {first : Session β}
    {next : β → Session α}
    (announces : Announces value first)
    (decided : DecidedBy decides (next value)) :
    DecidedBy decides (first >>= next) := by
  constructor
  · intro host before rest decisive result answersAre undecided isResult
    obtain ⟨printed, started⟩ := announces host
    obtain ⟨alsoPrinted, ended⟩ := @DecidedBy.settled _ _ _ decided
      { host with output := host.output ++ printed } _ _ _ _ answersAre
        undecided isResult
    refine ⟨printed ++ alsoPrinted, ?_⟩
    rw [start_bind, started]
    simp only [ended, String.append_assoc]
  · intro host undecided
    obtain ⟨printed, started⟩ := announces host
    obtain ⟨alsoPrinted, ended⟩ := @DecidedBy.unsettled _ _ _ decided
      { host with output := host.output ++ printed } undecided
    refine ⟨printed ++ alsoPrinted, ?_⟩
    rw [start_bind, started]
    simp only [ended, String.append_assoc]

end Session

end Flowgen
