import Flowgen.Json.Printer
import Flowgen.Naming.MethodName
import Flowgen.Provider
import Flowgen.Template.Slot
import Flowgen.Value.Number

namespace Flowgen.Method

/-!
# What the placeholders of a method stand for

Each placeholder of a method template takes a parameter of the node, written
as code.
-/

/-- A value between double quotes. -/
def inQuotes (value : Value) : String :=
  "\"" ++ value.display ++ "\""

/-- A value between double quotes; one that counts as false is empty. -/
def inQuotesOrEmpty (value : Value) : String :=
  if value.isTruthy then inQuotes value else "\"\""

/-- A header as an item of a list. -/
def headerItem (field : String × Value) : String :=
  "'" ++ field.1 ++ ": " ++ field.2.unwrapped.display ++ "'"

/-- Headers as a list; only an object has headers. -/
def headersCode : Value → String
  | .object fields => "[" ++ Text.join ", " (fields.map headerItem) ++ "]"
  | _ => "[]"

/-- A body as a document that is indented where it stands. -/
def bodyCode (body : Value) : String :=
  if body.isTruthy then
    Text.replace (Json.print (some 8) body) "\n" "\n    "
  else
    "null"

/-- The prompt of an agent: of an object its value, or else its text. -/
def promptValue (prompt : Value) : Value :=
  match prompt.field? "value", prompt.field? "text" with
  | some value, _ => value
  | none, some text => text
  | none, none => prompt

/-- The line for one tool, numbered for the case that it has no name. -/
def toolLine (number : Nat) (tool : Value) : Except Fault String := do
  let name ← tool.get "name" (.text ("tool_" ++ toString number))
  let description ← tool.get "description" (.text "")
  return "            $tools[] = ['name' => '" ++ name.display ++
    "', 'description' => '" ++ description.display ++ "'];\n"

/-- The lines for tools, numbered from a number on. -/
def toolLines (number : Nat) : List Value → Except Fault String
  | [] => .ok ""
  | tool :: tools => do
      let line ← toolLine number tool
      return line ++ (← toolLines (number + 1) tools)

/-- The code that hands tools to an agent; without tools there is none. -/
def toolsCode : Value → Except Fault String
  | .list [] => .ok ""
  | .list tools => do
      let lines ← toolLines 0 tools
      return "\n            // Tools disponíveis para o agente\n"
        ++ "            $tools = [];\n" ++ lines ++
        "            $body['tools'] = $tools;\n"
  | _ => .ok ""

/-- The remark that an agent has tools. -/
def toolsRemark : Value → String
  | .list (_ :: _) => "\n        // Tools configuradas e disponíveis para uso"
  | _ => ""

/-- The key under which a method leaves its output. -/
def outputKey (methodName : String) : String :=
  methodName ++ "_output"

/-- The code that looks up the key for a provider. -/
def keyCode (provider : Provider) : String :=
  "getenv('" ++ provider.keyVariable ++ "') ?: ''"

/-- The common placeholders of a node, in the order in which they are filled. -/
def commonSlots (node : Value) : Except Fault (List Template.Slot) := do
  let name ← Naming.methodName node
  let parameters ← node.get "parameters" (.object [])
  let options ← parameters.get "options" (.object [])
  let headers ← options.get "headers" (.object [])
  let body ← parameters.get "body" (.object [])
  let prompt := promptValue
    ((← parameters.get "prompt" (.text "")).orElse
      (← parameters.get "text" (.text "")))
  let model := ((← parameters.get "model" (.text "")).orElse
    (← parameters.get "modelName" (.text "gpt-3.5-turbo"))).unwrapped
  let defaultTemperature := Value.real (Decimal.toBinary64 false ⟨7, -1⟩)
  let temperature ←
    (← parameters.get "temperature" defaultTemperature).unwrapped.toReal
  let maxTokens ← ((← parameters.get "maxTokens" (.int 1000)).orElse
    (← parameters.get "max_tokens" (.int 1000))).unwrapped.toInteger
  let systemMessage := ((← parameters.get "systemMessage" (.text "")).orElse
    (← parameters.get "system_message" (.text ""))).unwrapped
  let providerName := (← parameters.get "provider" (.text "openai")).unwrapped
  let provider := Provider.ofName (← providerName.textFor .lower)
  let tools := (← parameters.get "tools" (.list [])).orElse
    (← parameters.get "availableTools" (.list []))
  let toolsText ← toolsCode tools
  let url ← parameters.get "url" (.text "")
  let method ← parameters.get "method" (.text "GET")
  return [
    ⟨"output_key", outputKey name⟩,
    ⟨"url", inQuotes url⟩,
    ⟨"method", inQuotes method⟩,
    ⟨"headers", headersCode headers⟩,
    ⟨"body", bodyCode body⟩,
    ⟨"prompt", inQuotesOrEmpty prompt⟩,
    ⟨"model", inQuotes model⟩,
    ⟨"temperature", temperature.display⟩,
    ⟨"max_tokens", toString maxTokens⟩,
    ⟨"system_message", inQuotesOrEmpty systemMessage⟩,
    ⟨"api_provider", inQuotes providerName⟩,
    ⟨"api_key", keyCode provider⟩,
    ⟨"api_url", "'" ++ provider.address ++ "'"⟩,
    ⟨"tools_code", toolsText⟩,
    ⟨"additional_code", toolsRemark tools⟩]

/--
Code, which should be a text, with the common placeholders of a node filled.
-/
def fillCommon (code node : Value) : Except Fault String := do
  let slots ← commonSlots node
  return Template.fill (← code.textFor .replace) slots

end Flowgen.Method
