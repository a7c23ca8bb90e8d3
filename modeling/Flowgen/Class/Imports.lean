import Flowgen.Parameters
import Flowgen.Provider
import Flowgen.Text.Lines

namespace Flowgen.Class

/-!
# Imports of credentials

A generated class names the credential classes of the providers that its agent
nodes use, in the order of their names.
-/

/-- The provider that an agent node uses; other nodes use none. -/
def providerOf (node : Value) : Except Fault (Option Provider) := do
  let type ← Parameters.typeOf node
  let parameters ← node.get "parameters" (.object [])
  if Text.contains type "aiagent" || Text.contains type "langchain" then
    let given ← parameters.get "provider" (.text "openai")
    let name ←
      match given with
      | .object _ => given.get "value" (.text "openai")
      | other => .ok other
    return some (.ofName (← name.textFor .lower))
  else
    return none

/-- The providers that some nodes use. -/
def providersOf : List Value → Except Fault (List Provider)
  | [] => .ok []
  | node :: nodes => do
      let provider ← providerOf node
      return provider.toList ++ (← providersOf nodes)

/-- The line that names a credential class in a language. -/
def importLine (language className : String) : String :=
  if language = "python" then
    "from " ++ className ++ " import " ++ className
  else if language = "javascript" then
    "const \x7b " ++ className ++
      " \x7d = require('\x7bcredentials_path_base\x7d/" ++ className ++ ".js');"
  else
    "use " ++ className ++ ";"

/-- The lines that name the credential classes of a workflow. -/
def imports (language : String) (workflow : Value) : Except Fault String := do
  let nodes ← workflow.get "nodes" (.list [])
  let used ← providersOf (← nodes.elements)
  let needed := Provider.byClass.filter used.contains
  return Text.ofLines (needed.map fun provider =>
    importLine language provider.credentialClass)

end Flowgen.Class
