import Flowgen.Expression
import Flowgen.SetOrder
import Flowgen.Text.Case

namespace Flowgen.Parameters

/-!
# Parameters that a workflow needs

The first node of a workflow declares parameters, by the fields of its body,
query and headers if it is a webhook, and by the references inside its own
parameters.  Every reference anywhere in the workflow needs a parameter too.
-/

/-- Whether a character may start an identifier. -/
def startsIdentifier (character : Char) : Bool :=
  character.isAlpha || character == '_'

/-- Whether a character may go on in an identifier. -/
def continuesIdentifier (character : Char) : Bool :=
  character.isAlphanum || character == '_'

/-- The identifier at the start of a text, as long as possible. -/
def identifierAt? : List Char → Option (List Char)
  | [] => none
  | character :: text =>
      if startsIdentifier character then
        some (character :: text.takeWhile continuesIdentifier)
      else
        none

/--
A reference at the start of a text: its name, and how many characters it
takes.
-/
def referenceAt? (text : List Char) : Option (List Char × Nat) := do
  let rest ← Text.after? "$json.".toList text
  let rest ← Expression.afterSource? rest
  let name ← identifierAt? rest
  return (name, text.length - rest.length + name.length)

/--
The names that a text refers to after `skip` characters, from left to right.
-/
def referencesAfter : Nat → List Char → List (List Char)
  | _, [] => []
  | skip + 1, _ :: text => referencesAfter skip text
  | 0, character :: text =>
      match referenceAt? (character :: text) with
      | some (name, length) => name :: referencesAfter (length - 1) text
      | none => referencesAfter 0 text

/--
The names that a text refers to; one without an expression refers to nothing.
-/
def references (text : String) : List String :=
  let characters := text.toList
  if Text.occurs Expression.opening characters &&
    Text.occurs "$json.".toList characters then
    (referencesAfter 0 characters).map String.ofList
  else
    []

/-- A name below another one, if that is not empty. -/
def qualified (scope name : String) : String :=
  if scope = "" then name else scope ++ "_" ++ name

mutual

/-- The names that the fields of an object declare, below a name. -/
def declaredInFields (scope : String) : List (String × Value) → List String
  | [] => []
  | (name, value) :: fields =>
      declaredInField scope name value ++ declaredInFields scope fields

/--
The names that a field declares: the first reference of a text, or what lies
below.
-/
def declaredInField (scope name : String) : Value → List String
  | .text content => (references content).head?.toList.map (qualified scope)
  | .object fields => declaredInFields (qualified scope name) fields
  | .list items => declaredInItems scope items
  | .real _ => []
  | .int _ => []
  | .bool _ => []
  | .null => []

/-- The names that the objects among some items declare. -/
def declaredInItems (scope : String) : List Value → List String
  | [] => []
  | .object fields :: items =>
      declaredInFields scope fields ++ declaredInItems scope items
  | .text _ :: items => declaredInItems scope items
  | .list _ :: items => declaredInItems scope items
  | .real _ :: items => declaredInItems scope items
  | .int _ :: items => declaredInItems scope items
  | .bool _ :: items => declaredInItems scope items
  | .null :: items => declaredInItems scope items

end

mutual

/-- The names that the fields of an object refer to, at any depth. -/
def usedInFields : List (String × Value) → List String
  | [] => []
  | (_, value) :: fields => usedInValue value ++ usedInFields fields

/-- The names that a field refers to. -/
def usedInValue : Value → List String
  | .text content => references content
  | .object fields => usedInFields fields
  | .list items => usedInItems items
  | .real _ => []
  | .int _ => []
  | .bool _ => []
  | .null => []

/-- The names that the objects among some items refer to. -/
def usedInItems : List Value → List String
  | [] => []
  | .object fields :: items => usedInFields fields ++ usedInItems items
  | .text _ :: items => usedInItems items
  | .list _ :: items => usedInItems items
  | .real _ :: items => usedInItems items
  | .int _ :: items => usedInItems items
  | .bool _ :: items => usedInItems items
  | .null :: items => usedInItems items

end

/-- The lower case of the type of a node. -/
def typeOf (node : Value) : Except Fault String := do
  let type ← node.get "type" (.text "")
  return Text.lower (← type.textFor .lower)

/-- The names of the fields, if a value is an object. -/
def fieldNames : Value → List String
  | .object fields => fields.map Prod.fst
  | _ => []

/-- The names that a webhook declares by its body, query and headers. -/
def webhookNames (parameters : Value) : Except Fault (List String) := do
  let body ← parameters.get "body" (.object [])
  let query ← parameters.get "query" (.object [])
  let headers ← parameters.get "headers" (.object [])
  return fieldNames body ++ fieldNames query ++ fieldNames headers

/-- The parameters that a node declares. -/
def ofNode (node : Value) : Except Fault (List String) := do
  let parameters ← node.get "parameters" (.object [])
  let type ← typeOf node
  let direct ← if Text.contains type "webhook" then webhookNames parameters
    else .ok []
  let fields ← parameters.fieldsFor .items
  return (direct ++ declaredInFields "" fields).eraseDups

/-- The first node whose type says that the workflow starts there. -/
def entryNode? : List Value → Except Fault (Option Value)
  | [] => .ok none
  | node :: nodes => do
      let type ← typeOf node
      if Text.contains type "webhook" || Text.contains type "start" then
        return some node
      else
        entryNode? nodes

/-- The parameters that the first node of a workflow declares. -/
def ofWorkflow (workflow : Value) : Except Fault (List String) := do
  let nodes ← workflow.get "nodes" (.list [])
  if nodes.isTruthy then
    let nodes ← nodes.elements
    match ← entryNode? nodes with
    | some node => ofNode node
    | none => ofNode (nodes.headD .null)
  else
    return []

/-- The names that nodes refer to. -/
def usedByNodes : List Value → Except Fault (List String)
  | [] => .ok []
  | node :: nodes => do
      let parameters ← node.get "parameters" (.object [])
      let fields ← parameters.fieldsFor .values
      return usedInFields fields ++ (← usedByNodes nodes)

/-- The set of names that a workflow refers to, as they are added to it. -/
def usedBy (workflow : Value) : Except Fault (List String) := do
  let nodes ← workflow.get "nodes" (.list [])
  return (← usedByNodes (← nodes.elements)).eraseDups

/--
The parameters of the class for a workflow: the declared ones, then those that
are missing among them, as a walk through the set of used names meets them.
-/
def ofClass
    (order : SetOrder)
    (workflow : Value) :
    Except Fault (List String) := do
  let declared ← ofWorkflow workflow
  let used ← usedBy workflow
  let missing := (order.walk used).filter fun name => !declared.contains name
  return declared ++ missing

end Flowgen.Parameters
