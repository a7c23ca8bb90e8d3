import Flowgen.Proofs.ConversionRuns

namespace Flowgen

/-!
# The requests that sessions send

Most of what the program does sends nothing.  Requests are sent by the client
alone, one at a time, and a session in several parts sends what its parts
send, as far as it comes.
-/

namespace Host

/-- What has been exchanged with the server, and what it will reply. -/
def traffic (host : Host) : Server × List Request :=
  (host.server, host.requests)

/-- The exchanges with the server, and the answers that the user has left. -/
def exchanges (host : Host) : List Answer × Server × List Request :=
  (host.answers, host.server, host.requests)

theorem exchanges_eq_iff
    {host other : Host} :
    host.exchanges = other.exchanges ↔
      host.answers = other.answers ∧ host.server = other.server ∧
        host.requests = other.requests := by
  rw [exchanges, exchanges, Prod.mk.injEq, Prod.mk.injEq]

end Host

namespace Session

variable {session : Session α} {host : Host} {view : Host → γ}
  {planned later : List Request}

/-- A session that does not change what is seen of the surroundings. -/
def Keeps (view : Host → γ) (session : Session α) : Prop :=
  ∀ host : Host, view (session.start host).2 = view host

namespace Keeps

theorem pure
    (value : α) :
    Keeps view (Pure.pure value : Session α) :=
  fun _ => rfl

theorem throw
    (fault : Fault) :
    Keeps view (MonadExcept.throw fault : Session α) :=
  fun _ => rfl

theorem lift
    (result : Except Fault α) :
    Keeps view (liftM result : Session α) :=
  fun _ => by rw [start_lift]

theorem get :
    Keeps view (MonadState.get : Session Host) :=
  fun _ => rfl

theorem bind
    {next : α → Session β}
    (first : Keeps view session)
    (rest : ∀ value, Keeps view (next value)) :
    Keeps view (session >>= next) := by
  intro host
  have kept := first host
  rw [start_bind]
  rcases ended : session.start host with ⟨fault | value, between⟩
  · rw [ended] at kept
    exact kept
  · rw [ended] at kept
    exact (rest value between).trans kept

theorem tryCatch
    {handler : Fault → Session α}
    (tried : Keeps view session)
    (handled : ∀ fault, Keeps view (handler fault)) :
    Keeps view (MonadExcept.tryCatch session handler) := by
  intro host
  have kept := tried host
  rw [start_tryCatch]
  rcases ended : session.start host with ⟨fault | value, between⟩
  · rw [ended] at kept
    exact (handled fault between).trans kept
  · rw [ended] at kept
    exact kept

theorem guarded
    {handler : Fault → Session α}
    (tried : Keeps view session)
    (handled : ∀ fault, Keeps view (handler fault)) :
    Keeps view (Session.guarded session handler) := by
  refine tryCatch tried fun fault => ?_
  split
  · exact throw fault
  · exact handled fault

theorem forM
    {items : List α}
    {action : α → Session PUnit}
    (each : ∀ item, Keeps view (action item)) :
    Keeps view (items.forM action) := by
  induction items with
  | nil =>
      exact pure PUnit.unit
  | cons item items inductionHypothesis =>
      exact bind (each item) fun _ => inductionHypothesis

theorem exchanges_of_local
    (isLocal : Local session) :
    Keeps Host.exchanges session := by
  intro host
  obtain ⟨printed, started⟩ := isLocal host
  rw [started]
  rfl

theorem traffic
    (keeps : Keeps Host.exchanges session) :
    Keeps Host.traffic session :=
  fun host => congrArg Prod.snd (keeps host)

theorem traffic_of_local
    (isLocal : Local session) :
    Keeps Host.traffic session :=
  (exchanges_of_local isLocal).traffic

theorem print
    (text : String) :
    Keeps Host.traffic (Session.print text) :=
  traffic_of_local (.print text)

theorem ask
    (prompt : String) :
    Keeps Host.traffic (Session.ask prompt) := by
  rintro ⟨files, environment, answers, server, requests, output⟩
  cases answers with
  | nil =>
      rfl
  | cons answer answers =>
      cases answer <;> rfl

/-- However often the user is asked, nothing is sent. -/
theorem askUntil
    (prompt : String)
    (judge : Answer → Verdict α) :
    Keeps Host.traffic (Session.askUntil prompt judge) := by
  have write : ∀ text, Keeps Host.traffic (Session.write text) := fun _ _ => rfl
  refine bind get fun host => ?_
  induction host.answers with
  | nil =>
      exact bind (write _) fun _ => throw _
  | cons answer answers inductionHypothesis =>
      refine bind (write _) fun _ => bind (fun _ => rfl) fun _ => ?_
      cases judge answer with
      | again text =>
          exact bind (write _) fun _ => inductionHypothesis
      | settled text result =>
          exact bind (write _) fun _ => pure _

theorem requests_eq
    (keeps : Keeps Host.traffic session)
    (host : Host) :
    (session.start host).2.requests = host.requests :=
  congrArg Prod.snd (keeps host)

end Keeps

/--
A session that sends requests as planned: the first ones, and all of them if
it ends well.
-/
def Sends (planned : List Request) (session : Session α) (host : Host) : Prop :=
  ∃ sent, (session.start host).2.requests = host.requests ++ sent ∧
    sent <+: planned ∧
    ∀ value, (session.start host).1 = .ok value → sent = planned

namespace Sends

theorem of_keeps
    (keeps : Keeps Host.traffic session) :
    Sends [] session host :=
  ⟨[], by rw [keeps.requests_eq, List.append_nil], List.prefix_rfl,
    fun _ _ => rfl⟩

/--
A session in two parts sends what the second part sends after what the first
part sends.
-/
theorem bind
    {next : α → Session β}
    (first : Sends planned session host)
    (rest : ∀ value between, session.start host = (.ok value, between) →
      Sends later (next value) between) :
    Sends (planned ++ later) (session >>= next) host := by
  obtain ⟨sent, requestsAre, isStart, whole⟩ := first
  rw [Sends, start_bind]
  rcases ended : session.start host with ⟨fault | value, between⟩
  · rw [ended] at requestsAre
    refine ⟨sent, requestsAre, isStart.trans (List.prefix_append _ _), ?_⟩
    rintro value ⟨⟩
  · rw [ended] at requestsAre whole
    obtain ⟨laterSent, laterAre, isLaterStart, laterWhole⟩ :=
      rest value between ended
    obtain rfl := whole value rfl
    refine ⟨sent ++ laterSent, ?_,
      (List.prefix_append_right_inj sent).mpr isLaterStart, ?_⟩
    · exact laterAre.trans (by rw [requestsAre, List.append_assoc])
    · intro result isResult
      rw [laterWhole result isResult]

/-- What comes first and sends nothing does not count. -/
theorem keeps_bind
    {next : α → Session β}
    (first : Keeps Host.traffic session)
    (rest : ∀ value between, session.start host = (.ok value, between) →
      Sends planned (next value) between) :
    Sends planned (session >>= next) host :=
  bind (of_keeps first) rest

/-- What comes last and sends nothing does not count. -/
theorem bind_keeps
    {next : α → Session β}
    (first : Sends planned session host)
    (rest : ∀ value, Keeps Host.traffic (next value)) :
    Sends planned (session >>= next) host := by
  rw [← List.append_nil planned]
  exact bind first fun value _ _ => of_keeps (rest value)

/--
If each item sends one request, then they are sent in the order of the items.
-/
theorem forM
    {items : List α}
    {action : α → Session PUnit}
    {request : α → Request}
    (each : ∀ item host, Sends [request item] (action item) host) :
    Sends (items.map request) (items.forM action) host := by
  induction items generalizing host with
  | nil =>
      exact of_keeps (.pure PUnit.unit)
  | cons item items inductionHypothesis =>
      exact bind (each item host) fun _ _ _ => inductionHypothesis

end Sends

end Session

open Session

namespace Client

variable {client : Client} {host : Host}

/-- The request that tests the connection. -/
def testRequest (client : Client) : Request :=
  ⟨client.listAddress, client.key, some 5⟩

/-- The request for the list of workflows. -/
def listRequest (client : Client) : Request :=
  ⟨client.listAddress, client.key, none⟩

/-- The request for a workflow that was chosen from the list. -/
def choiceRequest (client : Client) (choice : Value) : Request :=
  ⟨client.workflowAddress ((choice.field? "id").getD .null), client.key, none⟩

/-- A server that answers the test of the connection with status 200. -/
def Accepted (client : Client) (server : Server) : Prop :=
  ∃ reason body, server.reply? client.listAddress =
    some (.answer 200 reason body)

/--
What the list of workflows comes to, by the reply to the second request for
its address.
-/
def offered (client : Client) (server : Server) : Except Fault Value :=
  match fetched client.listAddress
      ((server.asked client.listAddress).reply? client.listAddress) >>=
      fun answer =>
        answer.get "data" (.list []) with
  | .ok workflows => .ok workflows
  | .error fault => if fault.isRequest then .ok (.list []) else .error fault

/--
The test of the connection sends one request and tells whether it is accepted.
-/
theorem start_isReachable
    (client : Client)
    (host : Host) :
    ∃ isAccepted, client.isReachable.start host = (.ok isAccepted,
        { host with
          server := host.server.asked client.listAddress
          requests := host.requests ++ [client.testRequest] }) ∧
      (isAccepted = true ↔ client.Accepted host.server) := by
  rw [isReachable, onFailure, start_tryCatch, start_bind, start_send, Accepted]
  cases host.server.reply? client.listAddress with
  | none =>
      exact ⟨false, rfl, by simp⟩
  | some reply =>
      cases reply with
      | failure name text =>
          exact ⟨false, rfl, by simp⟩
      | answer status reason body =>
          exact ⟨status == 200, rfl, by simp⟩

/-- The list of workflows takes one request, whatever comes of it. -/
theorem start_workflows
    {tested : Host}
    (isAsked : tested.server = host.server.asked client.listAddress) :
    ∃ listed, client.workflows.start tested =
      (client.offered host.server, listed) ∧ listed.answers = tested.answers ∧
      listed.requests = tested.requests ++ [client.listRequest] := by
  rw [workflows, onFailure, start_tryCatch, start_bind, start_fetch, offered,
    isAsked]
  cases fetched client.listAddress
      ((host.server.asked client.listAddress).reply? client.listAddress) with
  | error fault =>
      dsimp only [bind, Except.bind]
      split
      · exact ⟨_, rfl, rfl, rfl⟩
      · exact ⟨_, rfl, rfl, rfl⟩
  | ok answer =>
      simp only [start_lift, bind, Except.bind]
      cases answer.get "data" (.list []) with
      | ok workflows =>
          exact ⟨_, rfl, rfl, rfl⟩
      | error fault =>
          dsimp only
          split
          · exact ⟨_, rfl, rfl, rfl⟩
          · exact ⟨_, rfl, rfl, rfl⟩

/-- A workflow takes one request, whether it is delivered or not. -/
theorem sends_workflow
    (client : Client)
    (id : Value)
    (host : Host) :
    Sends [⟨client.workflowAddress id, client.key, none⟩] (client.workflow id)
      host := by
  refine ⟨_, ?_, List.prefix_rfl, fun _ _ => rfl⟩
  rw [workflow, onFailure, start_tryCatch, start_fetch]
  cases fetched (client.workflowAddress id)
    (host.server.reply? (client.workflowAddress id)) with
  | ok value =>
      rfl
  | error fault =>
      dsimp only
      split
      · rfl
      · rfl

end Client

end Flowgen
