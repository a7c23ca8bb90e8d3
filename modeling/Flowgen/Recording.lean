import Flowgen.Session

namespace Flowgen.Recording

/-!
# Recorded servers

A server can be written down as an object: for each address a reply, or a list
of replies in turn.  A reply has a status, a reason and a body, given as a value
or as raw text, or else it names the fault of a failed transport.
-/

/-- The text of a field, empty if the field is missing. -/
def textField (value : Value) (name : String) : String :=
  (value.field? name).elim "" Value.display

/-- The status of a reply; a reply that gives none is a success. -/
def statusOf (value : Value) : Int :=
  match value.field? "status" with
  | some (.int number) => number
  | _ => 200

/-- The body of a reply. -/
def bodyOf (value : Value) : Body :=
  match value.field? "body" with
  | some (.text content) => .raw content
  | _ => .value ((value.field? "json").getD .null)

/-- One reply. -/
def replyOf (value : Value) : Reply :=
  match value.field? "raise" with
  | some name => .failure name.display (textField value "message")
  | none => .answer (statusOf value) (textField value "reason") (bodyOf value)

/-- The replies for one address. -/
def repliesOf : Value → List Reply
  | .list replies => replies.map replyOf
  | other => [replyOf other]

/-- The server that an object records. -/
def serverOf : Value → Server
  | .object fields => ⟨fields.map fun field => (field.1, repliesOf field.2)⟩
  | _ => ⟨[]⟩

end Flowgen.Recording
