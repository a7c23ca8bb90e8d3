import Flowgen.Client
import Flowgen.Proofs.Permissions

namespace Flowgen

/-!
# Servers that always reply the same

A server is steady if at each address it always gives the same reply.  What a
client gets from it then depends on the address alone, and not on what was
asked for before.
-/

open Session

namespace Server

/-- The reply that comes next at an address. -/
def reply? (server : Server) (address : String) : Option Reply :=
  (nextReply address server.replies).1

/-- The server after a request at an address. -/
def asked (server : Server) (address : String) : Server :=
  ⟨(nextReply address server.replies).2⟩

/-- A server whose replies at an address are all the same. -/
def Steady (server : Server) : Prop :=
  ∀ address replies, server.replies.lookup address = some replies →
    ∀ reply ∈ replies, replies.head? = some reply

/-- Two servers that reply the same next, at every address. -/
def Alike (first second : Server) : Prop :=
  ∀ address, first.reply? address = second.reply? address

theorem nextReply_fst
    (address : String)
    (table : List (String × List Reply)) :
    (nextReply address table).1 = (table.lookup address).bind List.head? := by
  induction table with
  | nil =>
      rfl
  | cons entry table inductionHypothesis =>
      obtain ⟨name, replies⟩ := entry
      rw [nextReply, List.lookup_cons]
      by_cases isHere : name = address
      · subst isHere
        rw [if_pos rfl, beq_self_eq_true]
        rcases replies with _ | ⟨first, _ | ⟨second, rest⟩⟩ <;> rfl
      · rw [if_neg isHere, beq_false_of_ne (Ne.symm isHere)]
        exact inductionHypothesis

/-- A request takes a reply at its own address, unless that is the last one. -/
theorem lookup_nextReply
    (address other : String)
    (table : List (String × List Reply)) :
    (nextReply address table).2.lookup other = table.lookup other ∨
      ∃ first rest, rest ≠ [] ∧ table.lookup other = some (first :: rest) ∧
        (nextReply address table).2.lookup other = some rest := by
  induction table with
  | nil =>
      exact .inl rfl
  | cons entry table inductionHypothesis =>
      obtain ⟨name, replies⟩ := entry
      rw [nextReply]
      by_cases isHere : name = address
      · subst isHere
        rw [if_pos rfl]
        rcases replies with _ | ⟨first, _ | ⟨second, rest⟩⟩
        · exact .inl rfl
        · exact .inl rfl
        · dsimp only
          rw [List.lookup_cons, List.lookup_cons]
          cases other == name with
          | true =>
              exact .inr ⟨first, second :: rest, by simp, rfl, rfl⟩
          | false =>
              exact .inl rfl
      · rw [if_neg isHere]
        dsimp only
        rw [List.lookup_cons, List.lookup_cons]
        cases other == name with
        | true =>
            exact .inl rfl
        | false =>
            exact inductionHypothesis

/-- A steady server stays so, and goes on to reply the same. -/
theorem Steady.asked
    {server : Server}
    (steady : server.Steady)
    (address : String) :
    (server.asked address).Steady ∧ (server.asked address).Alike server := by
  -- If a reply was taken at an address, then those left there are all like it.
  have left :
      ∀ {other first rest}, server.replies.lookup other = some (first :: rest) →
      rest ≠ [] → ∀ reply ∈ rest, rest.head? = some reply ∧ reply = first := by
    intro other first rest found notNil reply member
    have each : ∀ reply ∈ rest, first = reply := fun reply isLeft =>
      Option.some.inj (steady other _ found reply
        (List.mem_cons_of_mem _ isLeft))
    obtain ⟨second, others, rfl⟩ := List.exists_cons_of_ne_nil notNil
    rw [← each reply member, ← each second (by simp)]
    exact ⟨rfl, rfl⟩
  constructor
  · intro other replies found reply member
    obtain same | ⟨first, rest, notNil, before, after⟩ :=
      lookup_nextReply address other server.replies
    · exact steady other replies (same ▸ found) reply member
    · rw [Server.asked, after, Option.some.injEq] at found
      subst found
      exact (left before notNil reply member).1
  · intro other
    rw [reply?, reply?, nextReply_fst, nextReply_fst, Server.asked]
    obtain same | ⟨first, rest, notNil, before, after⟩ :=
      lookup_nextReply address other server.replies
    · rw [same]
    · obtain ⟨second, others, rfl⟩ := List.exists_cons_of_ne_nil notNil
      have isSame := (left before notNil second (by simp)).2
      rw [before, after, isSame]
      rfl

end Server

namespace Session

/-- What comes of a request, by the reply to it. -/
def received
    (address : String) :
    Option Reply → Except Fault (Int × String × Body)
  | some (.answer status reason body) => .ok (status, reason, body)
  | some (.failure name text) => .error (.request (.transport name) text)
  | none =>
      .error (.request (.transport "ConnectionError")
      ("no route to " ++ address))

/--
A request takes a reply from the server and changes nothing else but the
record of requests.
-/
theorem start_send
    (request : Request)
    (host : Host) :
    (send request).start host =
      (received request.address (host.server.reply? request.address),
        { host with
          server := host.server.asked request.address
          requests := host.requests ++ [request] }) := by
  rw [send, start_get_bind, Server.reply?, Server.asked]
  generalize nextReply request.address host.server.replies = next
  obtain ⟨reply, replies⟩ := next
  cases reply with
  | none =>
      rfl
  | some reply =>
      cases reply <;> rfl

end Session

namespace Client

/-- The value that comes from an address, by the reply there. -/
def fetched (address : String) (reply : Option Reply) : Except Fault Value :=
  received address reply >>= fun answer =>
    match statusFault? answer.1 answer.2.1 address with
    | some fault => .error fault
    | none => bodyValue answer.2.2

/-- What a value counts as if a request may fail. -/
def delivered : Except Fault Value → Except Fault Value
  | .ok value => .ok value
  | .error fault => if fault.isRequest then .ok .null else .error fault

theorem start_fetch
    (client : Client)
    (address : String)
    (host : Host) :
    (client.fetch address).start host =
      (fetched address (host.server.reply? address),
        { host with
          server := host.server.asked address
          requests := host.requests ++ [⟨address, client.key, none⟩] }) := by
  rw [fetch, start_bind, start_send, fetched]
  cases received address (host.server.reply? address) with
  | error fault =>
      rfl
  | ok answer =>
      obtain ⟨status, reason, body⟩ := answer
      simp only [bind, Except.bind]
      cases statusFault? status reason address with
      | some fault =>
          rfl
      | none =>
          exact start_lift _

/-- Asking for a workflow takes one reply, and keeps the files. -/
theorem start_workflow
    (client : Client)
    (id : Value)
    (host : Host) :
    ((client.workflow id).start host).1 =
        delivered (fetched (client.workflowAddress id)
          (host.server.reply? (client.workflowAddress id))) ∧
      ((client.workflow id).start host).2.files = host.files ∧
      ((client.workflow id).start host).2.server =
        host.server.asked (client.workflowAddress id) ∧
      ((client.workflow id).start host).2.setOrder = host.setOrder := by
  rw [workflow, onFailure, start_tryCatch, start_fetch]
  cases fetched (client.workflowAddress id)
    (host.server.reply? (client.workflowAddress id)) with
  | ok value =>
      exact ⟨rfl, rfl, rfl, rfl⟩
  | error fault =>
      dsimp only [delivered]
      split
      · exact ⟨rfl, rfl, rfl, rfl⟩
      · exact ⟨rfl, rfl, rfl, rfl⟩

end Client

end Flowgen
