import Flowgen.Fault

namespace Flowgen

/-!
# Asking values for what they may not have

Each accessor names the one thing it needs of a value, and faults if the value
is of a kind that lacks it.
-/

namespace Value

/-- The field of an object, or the fallback if the object lacks it. -/
def get
    (value : Value)
    (name : String)
    (fallback : Value) :
    Except Fault Value :=
  match value with
  | .object fields => .ok ((Fields.get? name fields).getD fallback)
  | other => .error (.noOperation other.kind .get)

/-- The fields of an object, wanted for the given operation. -/
def fieldsFor (value : Value) (operation : Operation) : Except Fault Fields :=
  match value with
  | .object fields => .ok fields
  | other => .error (.noOperation other.kind operation)

/-- The content of a text, wanted for the given operation. -/
def textFor (value : Value) (operation : Operation) : Except Fault String :=
  match value with
  | .text content => .ok content
  | other => .error (.noOperation other.kind operation)

/-- The content of a text, wanted as the given argument. -/
def textAs (value : Value) (argument : TextArgument) : Except Fault String :=
  match value with
  | .text content => .ok content
  | other => .error (.needsText argument other.kind)

/-- What one goes through in a value: items, characters, or names of fields. -/
def elements : Value → Except Fault (List Value)
  | .list items => .ok items
  | .text content =>
      .ok (content.toList.map fun character =>
      .text (String.ofList [character]))
  | .object fields => .ok (fields.map fun field => .text field.1)
  | other => .error (.notIterable other.kind)

/-- How many elements a value has. -/
def count : Value → Except Fault Nat
  | .list items => .ok items.length
  | .text content => .ok content.toList.length
  | .object fields => .ok fields.length
  | other => .error (.noLength other.kind)

end Value

end Flowgen
