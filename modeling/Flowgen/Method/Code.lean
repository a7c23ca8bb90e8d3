import Flowgen.Method.Slots
import Flowgen.Template.Store

namespace Flowgen.Method

/-!
# Methods

Every node becomes a method: its template with all placeholders filled, or a
plain method if there is no template for its type.
-/

/-- The type of nodes that a written type stands for. -/
def normalizedType (type : String) : String :=
  let lowered := Text.lower type
  if Text.contains lowered "langchain" && Text.contains lowered "agent" then
    "aiAgent"
  else if Text.startsWith type "n8n-nodes-" then
    Text.replace type "n8n-nodes-" ""
  else if Text.startsWith type "@n8n/" then
    (Text.split type ".").getLast?.getD type
  else
    type

/-- The statement that leaves an empty output under the key of a method. -/
def emptyOutput (methodName : String) : String :=
  "$this->context['" ++ outputKey methodName ++ "'] = [];"

/-- The method for a node without a template. -/
def defaultMethod (node : Value) : Except Fault String := do
  let name ← Naming.methodName node
  let nodeName ← node.get "name" (.text "Node")
  let type ← node.get "type" (.text "unknown")
  return "private function " ++ name ++ "(): void\n\x7b\n    // Nó: " ++
    nodeName.display ++ "\n    // Tipo: " ++ type.display
    ++ "\n    // TODO: Implementar lógica específica deste nó\n    "
    ++ emptyOutput name ++ "\n\x7d"

/-- The code of a function node, shown by its first hundred characters. -/
def functionCode
    (name : String)
    (parameters : Value) :
    Except Fault String := do
  let code ← parameters.get "functionCode" (.text "")
  if code.isTruthy then
    let text ← code.textFor .replace
    return "// Código convertido do n8n\n    // " ++
      String.ofList (text.toList.take 100) ++ "...\n    " ++ emptyOutput name
  else
    return "// Função vazia\n    " ++ emptyOutput name

/-- The code for a node of a type. -/
def nodeCode (node : Value) (type : String) : Except Fault String := do
  let parameters ← node.get "parameters" (.object [])
  let name ← Naming.methodName node
  if type = "function" then
    functionCode name parameters
  else if type = "httpRequest" then
    return "// HTTP Request processado pelo template"
  else
    let nodeName ← node.get "name" (.text "Node")
    return "// Processamento do nó " ++ type ++ ": " ++ nodeName.display ++
      "\n    " ++ emptyOutput name

/--
The placeholders of a node of a type, in the order in which they are filled.
-/
def slots
    (node : Value)
    (type : String) :
    Except Fault (List Template.Slot) := do
  let name ← Naming.methodName node
  let code ← nodeCode node type
  let common ← commonSlots node
  return ⟨"method_name", name⟩ :: ⟨"generated_code", code⟩ :: common
    ++ [⟨"generated_code", code⟩]

/-- The method for a node from its template. -/
def ofTemplate
    (template : String)
    (node : Value)
    (type : String) :
    Except Fault String := do
  return Template.fill template (← slots node type)

/-- The method for a node in a language. -/
def ofNode
    (store : Template.Store)
    (language : String)
    (node : Value) :
    Session String := do
  let written ← node.get "type" (.text "")
  let type := normalizedType (← written.textFor .lower)
  match ← store.loadNode (.text type) (.text language) with
  | some template => ofTemplate template.method node type
  | none => defaultMethod node

end Flowgen.Method
