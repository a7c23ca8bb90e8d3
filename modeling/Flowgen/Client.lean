import Flowgen.Json.Reader
import Flowgen.Session

namespace Flowgen

/-!
# The workflow server

A client asks the server for the list of workflows and for single ones.  A
request that fails is reported and counts as an empty answer.
-/

/-- A client for a server at an address, with the key it shows. -/
structure Client where
  base : String
  key : Value
  deriving Repr

namespace Client

/--
A client for a server whose address should be a text; slashes at its end do
not count.
-/
def make (address key : Value) : Except Fault Client := do
  let text ← address.textFor .rstrip
  return ⟨String.ofList (Text.dropEnd (· == '/') text.toList), key⟩

/-- The address of the list of workflows. -/
def listAddress (client : Client) : String :=
  client.base ++ "/api/v1/workflows"

/-- The address of one workflow. -/
def workflowAddress (client : Client) (id : Value) : String :=
  client.listAddress ++ "/" ++ id.display

/-- The fault of a status, if it is one of an error. -/
def statusFault? (status : Int) (reason address : String) : Option Fault :=
  let about := " Error: " ++ reason ++ " for url: " ++ address
  if 400 ≤ status ∧ status < 500 then
    some (.request .status (toString status ++ " Client" ++ about))
  else if 500 ≤ status ∧ status < 600 then
    some (.request .status (toString status ++ " Server" ++ about))
  else
    none

/-- The value of a body. -/
def bodyValue : Body → Except Fault Value
  | .value content => .ok content
  | .raw text =>
      (Json.parse text).mapError fun fault =>
        match fault with
        | .malformedJson => .request .malformed Fault.malformedJson.message
        | other => other

/-- Get the value at an address. -/
def fetch (client : Client) (address : String) : Session Value := do
  let (status, reason, body) ← Session.send ⟨address, client.key, none⟩
  match statusFault? status reason address with
  | some fault => throw fault
  | none => bodyValue body

/-- Handle a failed request; other faults pass. -/
def onFailure (session : Session α) (handler : Fault → Session α) : Session α :=
  tryCatch session fun fault =>
    if fault.isRequest then handler fault else throw fault

/-- The list of workflows, empty after a failed request. -/
def workflows (client : Client) : Session Value :=
  onFailure
    (do
      let answer ← client.fetch client.listAddress
      answer.get "data" (.list []))
    fun fault => do
      Session.print ("Erro ao buscar workflows: " ++ fault.message)
      return .list []

/-- One workflow, or nothing after a failed request. -/
def workflow (client : Client) (id : Value) : Session Value :=
  onFailure
    (client.fetch (client.workflowAddress id))
    fun fault => do
      Session.print ("Erro ao buscar workflow " ++ id.display ++ ": " ++
        fault.message)
      return .null

/-- Whether the server answers well within five seconds. -/
def isReachable (client : Client) : Session Bool :=
  onFailure
    (do
      let (status, _, _) ← Session.send ⟨client.listAddress, client.key, some 5⟩
      return status == 200)
    fun _ => return false

end Client

end Flowgen
