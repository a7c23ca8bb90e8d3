import Flowgen.Number.Binary64

namespace Flowgen

/-!
# Free-form values

Workflows, nodes and settings are documents without a fixed shape, so they are
kept as ordered values: an object remembers the order of its fields, integers
have any size, and an integer is not a double.
-/

/-- A value of a free-form document. -/
inductive Value where
  | null
  | bool (flag : Bool)
  | int (number : Int)
  | real (number : Binary64)
  | text (content : String)
  | list (items : List Value)
  | object (fields : List (String × Value))
  deriving Repr, Inhabited

/-- The fields of an object, in order. -/
abbrev Fields :=
  List (String × Value)

/-- The kinds of values. -/
inductive Kind where
  | null
  | bool
  | int
  | real
  | text
  | list
  | object
  deriving DecidableEq, Repr

/-- The name of a kind in messages. -/
def Kind.name : Kind → String
  | .null => "NoneType"
  | .bool => "bool"
  | .int => "int"
  | .real => "float"
  | .text => "str"
  | .list => "list"
  | .object => "dict"

namespace Fields

/-- Set a field: an existing one keeps its place, a new one goes to the end. -/
def set (name : String) (value : α) : List (String × α) → List (String × α)
  | [] => [(name, value)]
  | field :: fields =>
      if field.1 = name then
        (name, value) :: fields
      else
        field :: set name value fields

/-- The fields after setting them one by one. -/
def ofList (entries : List (String × α)) : List (String × α) :=
  entries.foldl (fun fields entry => set entry.1 entry.2 fields) []

/-- The value of a field. -/
def get? (name : String) : List (String × α) → Option α
  | [] => none
  | field :: fields =>
      if field.1 = name then
        some field.2
      else
        get? name fields

end Fields

namespace Value

/-- The kind of a value. -/
def kind : Value → Kind
  | .null => .null
  | .bool _ => .bool
  | .int _ => .int
  | .real _ => .real
  | .text _ => .text
  | .list _ => .list
  | .object _ => .object

/--
Whether a value counts as true: neither nothing, nor false, nor zero, nor
empty.
-/
def isTruthy : Value → Bool
  | .null => false
  | .bool flag => flag
  | .int number => number != 0
  | .real number => !number.isZero
  | .text content => content != ""
  | .list items => !items.isEmpty
  | .object fields => !fields.isEmpty

/-- The first value if it counts as true, else the second. -/
def orElse (first second : Value) : Value :=
  if first.isTruthy then first else second

/-- The field of an object that has it. -/
def field? (name : String) : Value → Option Value
  | .object fields => Fields.get? name fields
  | _ => none

/--
What a setting stands for: the `value` field of an object that has one, else
itself.
-/
def unwrapped (value : Value) : Value :=
  (value.field? "value").getD value

end Value

end Flowgen
