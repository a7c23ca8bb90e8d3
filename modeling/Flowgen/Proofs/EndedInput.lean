import Flowgen.Proofs.LanguageChoices

namespace Flowgen

/-!
# Questions after the end of the input

The end of the input is no choice, so that a question goes on as after any
answer that chooses nothing: it is asked again.  When there is only the end of
the input left, a question is repeated as often as the end is met, and the
program does not get beyond it.
-/

namespace Session

variable {session : Session α} {decides : Answer → α → Prop}

/-- Answers each of which says that the input has ended. -/
def Ended (answers : List Answer) : Prop :=
  ∀ answer ∈ answers, ∃ message, answer = .endOfInput message

/--
A session that asks on when the input has ended before an answer has decided.
-/
structure AsksPastEnd (decides : Answer → α → Prop) (session : Session α) :
  Prop where
  /--
  What comes of the session, and what it leaves, is as if it started behind
  the end.
  -/
  goesOn : ∀ {host : Host} {before rest : List Answer} {message : String},
    host.answers = before ++ .endOfInput message :: rest →
    Undecided decides before →
    (session.start host).1 = (session.start { host with answers := rest }).1 ∧
      (session.start host).2.answers =
        (session.start { host with answers := rest }).2.answers
  /-- A further answer is asked for: one is taken, or there is none. -/
  asksAgain : ∀ {host : Host} {before rest : List Answer} {message : String},
    host.answers = before ++ .endOfInput message :: rest →
    Undecided decides before →
    (session.start host).1 = .error .answersExhausted ∨
      (session.start host).2.answers.length < rest.length
  /--
  As long as the input is ended the session takes every answer and returns
  nothing.
  -/
  neverReturns : ∀ {host : Host} {before ended : List Answer},
    host.answers = before ++ ended →
    Undecided decides before →
    Ended ended →
    (session.start host).1 = .error .answersExhausted ∧
    (session.start host).2.answers = []

namespace DecidedBy

/-- A decided session takes an answer, or there is none that it could take. -/
theorem takes_answer
    (decided : DecidedBy decides session)
    (host : Host) :
    (session.start host).1 = .error .answersExhausted ∨
      (session.start host).2.answers.length < host.answers.length := by
  obtain none | ⟨before, decisive, rest, result, answersAre, undecided,
    isResult⟩ :=
    undecided_or_first decides host.answers
  · obtain ⟨printed, exhausted⟩ := decided.unsettled none
    exact .inl (by rw [exhausted])
  · obtain ⟨printed, settled⟩ := decided.settled answersAre undecided isResult
    refine .inr ?_
    rw [settled, answersAre, List.length_append, List.length_cons]
    exact Nat.lt_add_left _ (Nat.lt_succ_self _)

/-- A session that the end of the input does not decide asks on after it. -/
theorem asksPastEnd
    (decided : DecidedBy decides session)
    (isNoChoice : ∀ message result, ¬ decides (.endOfInput message) result) :
    AsksPastEnd decides session := by
  have undecidedEnd : ∀ {ended}, Ended ended → Undecided decides ended := by
    intro ended isEnded answer member result
    obtain ⟨message, rfl⟩ := isEnded answer member
    exact isNoChoice message result
  have past : ∀ {host : Host} {before rest : List Answer} {message : String},
      host.answers = before ++ .endOfInput message :: rest →
      Undecided decides before →
      (session.start host).1 = (session.start { host with answers := rest }).1 ∧
        (session.start host).2.answers =
          (session.start { host with answers := rest }).2.answers := by
    intro host before rest message answersAre undecided
    rw [List.append_cons] at answersAre
    exact decided.start_past answersAre
      (undecided.append (undecidedEnd (by simp [Ended])))
  refine ⟨past, fun answersAre undecided => ?_,
    fun answersAre undecided isEnded => ?_⟩
  · obtain ⟨sameOutcome, sameLeft⟩ := past answersAre undecided
    rw [sameOutcome, sameLeft]
    exact decided.takes_answer _
  · obtain ⟨printed, exhausted⟩ :=
      decided.unsettled (answersAre ▸ undecided.append (undecidedEnd isEnded))
    rw [exhausted]
    exact ⟨rfl, rfl⟩

end DecidedBy

end Session

namespace Program

open Session Selection

variable {host : Host} {client : Client} {items : List Value}
  {left : List Answer}

/-- A run that offers workflows gets no further than its question for them. -/
theorem run_of_undecided
    (notNil : items ≠ [])
    (areObjects : ∀ item ∈ items, item.kind = .object)
    (connects : Connects host client left)
    (isAccepted : client.Accepted host.server)
    (offered : client.offered host.server = .ok (.list items))
    (undecided : Undecided (WorkflowChoice items) left) :
    (run.start host).1 = .error .answersExhausted ∧
    (run.start host).2.answers = [] := by
  obtain ⟨address, key, language, keyed, isMade, started, answersLeft,
    sameServer, _⟩ :=
    start_body_of_connects connects
  obtain ⟨listed, sameAnswers, _, _, served⟩ :=
    start_serve_of_accepted isMade (sameServer ▸ isAccepted) language
  have isTruthy : (Value.list items).isTruthy = true := by
    simpa [Value.isTruthy] using notNil
  have counted : (Value.list items).count = .ok items.length := rfl
  obtain ⟨shown, isShown, sameShown⟩ :=
    start_print ("✓ " ++ toString items.length ++ " workflow(s) encontrado(s).")
      listed
  have answersAre : shown.answers = left :=
    (answers_of_print isShown).trans (sameAnswers.trans answersLeft)
  obtain ⟨printed, exhausted⟩ :=
    (decidedBy_chooseWorkflows notNil areObjects).unsettled
      (answersAre ▸ undecided)
  have ended : body.start host = (.error .answersExhausted,
      { shown with answers := [], output := shown.output ++ printed }) := by
    rw [started, served (.list items) (sameServer ▸ offered), convertOffered,
      if_pos isTruthy, counted, start_bind, start_lift]
    dsimp only
    rw [start_bind, isShown]
    dsimp only
    rw [chooseAndConvert, start_bind, exhausted]
  rw [run, start_tryCatch, ended]
  exact ⟨rfl, rfl⟩

/--
Neither the question for workflows nor the one for languages ends with the
input: they are asked again after its end, and when nothing else follows they
take it as often as it comes.  A run whose server offers workflows then stays
with its first question.
-/
theorem questions_ask_past_end
    (notNil : items ≠ [])
    (areObjects : ∀ item ∈ items, item.kind = .object)
    (default : Value) :
    AsksPastEnd (WorkflowChoice items) (chooseWorkflows (.list items)) ∧
    AsksPastEnd (LanguageChoice default) (chooseLanguages default) ∧
    ∀ host client before ended, Connects host client (before ++ ended) →
      client.Accepted host.server →
      client.offered host.server = .ok (.list items) →
      Undecided (WorkflowChoice items) before → Ended ended →
      (run.start host).1 = .error .answersExhausted ∧
      (run.start host).2.answers = [] := by
  have noWorkflows : ∀ message chosen,
      ¬ WorkflowChoice items (.endOfInput message) chosen := by
    rintro message chosen ⟨⟩
  have noLanguages : ∀ message chosen,
      ¬ LanguageChoice default (.endOfInput message) chosen := by
    rintro message chosen ⟨⟩
  refine ⟨(decidedBy_chooseWorkflows notNil areObjects).asksPastEnd noWorkflows,
    (decidedBy_chooseLanguages default).asksPastEnd noLanguages, ?_⟩
  intro host client before ended connects isAccepted offered undecided isEnded
  refine run_of_undecided notNil areObjects connects isAccepted offered
    (undecided.append ?_)
  intro answer member chosen
  obtain ⟨message, rfl⟩ := isEnded answer member
  exact noWorkflows message chosen

/--
After the end of the input the second answer is taken and chooses.  In a run
with a wrong answer and the end of the input behind it, all is taken and the
program still asks.
-/
theorem questions_ask_past_end_listHost :
    ((chooseWorkflows (.list [choiceOf "a", choiceOf "b"])).start
        (answeringHost ([] ++ .endOfInput "" :: [.typed "2"]))).2.answers = [] ∧
      (run.start (listHost ([.typed "3"] ++
        [.endOfInput "", .endOfInput ""]))).1 = .error .answersExhausted ∧
      (run.start (listHost ([.typed "3"] ++
        [.endOfInput "", .endOfInput ""]))).2.answers = [] := by
  have areObjects :
      ∀ item ∈ [choiceOf "a", choiceOf "b"], item.kind = .object := by
    simp [choiceOf, Value.kind]
  have undecided :
      Undecided (WorkflowChoice [choiceOf "a", choiceOf "b"]) [.typed "3"] :=
    undecided_of_judge (judgeWorkflows_eq_some_iff _) (by decide +kernel)
  obtain ⟨workflows, _, runs⟩ :=
    questions_ask_past_end (by simp) areObjects (.text "php")
  refine ⟨?_, runs _ fewClient _ _ (connects_listHost _) ⟨_, _, rfl⟩ rfl
    undecided (by simp [Ended])⟩
  obtain ⟨_, sameLeft⟩ :=
    @workflows.goesOn (answeringHost ([] ++ .endOfInput "" :: [.typed "2"]))
    [] [.typed "2"] "" rfl (by simp [Undecided])
  rw [sameLeft]
  decide +kernel

end Program

end Flowgen
