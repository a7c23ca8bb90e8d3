import Flowgen.Class.Constructor
import Flowgen.Class.Imports
import Flowgen.ExecutionOrder
import Flowgen.Method.Code
import Flowgen.Naming.ClassName
import Flowgen.Output

namespace Flowgen.Class

/-!
# Generated classes

A workflow becomes a class: the class template of the language, filled with a
method and a call for each node in execution order, with the constructor, and
with the imports of credentials.
-/

/-- What generates classes in one language. -/
structure Generator where
  store : Template.Store
  language : String
  output : Output
  deriving Repr

namespace Generator

/-- A generator for a language, with its output directory made. -/
def make (store : Template.Store) (language : String) : Session Generator := do
  return ⟨store, language, ← Output.make "output"⟩

/--
The methods of nodes and the calls to them; an empty method is left out with
its call.
-/
def methods
    (generator : Generator) :
    List Value → Session (List String × List String)
  | [] => return ([], [])
  | node :: nodes => do
      let code ← Method.ofNode generator.store generator.language node
      if code = "" then
        methods generator nodes
      else
        let name ← Naming.methodName node
        let (codes, calls) ← methods generator nodes
        return (code :: codes, ("$this->" ++ name ++ "();") :: calls)

/-- The parameters of a class as fields, all of any type. -/
def parameterFields (names : List String) : Value :=
  .object (names.map fun name => (name, .text "mixed"))

/-- The directory part of a path that is written with slashes. -/
def directoryOf (path : String) : String :=
  let reversed := path.toList.reverse
  if reversed.contains '/' then
    let directory := reversed.dropWhile fun character => character != '/'
    String.ofList (directory.drop 1).reverse
  else
    "credentials"

/-- The placeholders that only one language has. -/
def languageSlots
    (language className reference : String) :
    List Template.Slot :=
  if language = "javascript" then
    [⟨"credentials_path_base", directoryOf reference⟩,
     ⟨"module_export", "module.exports = " ++ className ++ ";"⟩]
  else
    []

/--
The placeholders of a class template, in the order in which they are filled.
-/
def classSlots
    (language className workflowName : String)
    (codes calls : List String)
    (constructor imports : String) :
    List Template.Slot :=
  let reference := Output.credentialsReference language
  [⟨"class_name", className⟩,
   ⟨"workflow_name", workflowName⟩,
   ⟨"steps_methods", Text.join "\n\n    " codes⟩,
   ⟨"steps_calls", Text.join "\n            " calls⟩,
   ⟨"constructor", constructor⟩,
   ⟨"credentials_use", imports⟩,
   ⟨"credentials_import", imports⟩,
   ⟨"credentials_require", imports⟩,
   ⟨"credentials_path", reference⟩,
   ⟨"version", "1.0.0"⟩]
    ++ languageSlots language className reference

/-- The class for a workflow with nodes, from its template. -/
def fillClass
    (generator : Generator)
    (template : String)
    (workflow nodes : Value) :
    Session String := do
  let names ← Parameters.ofClass (← Session.setOrder) workflow
  let ordered ← ExecutionOrder.ordered nodes
  let (codes, calls) ← generator.methods ordered
  let code ← constructor generator.language (parameterFields names)
  let importLines ← imports generator.language workflow
  let className ← Naming.className workflow
  let workflowName ← workflow.get "name" (.text "Workflow sem nome")
  let slots :=
    classSlots generator.language className (← workflowName.textAs .replacement)
    codes calls code importLines
  return Template.fill template slots

/-- The class for a workflow, or nothing after a message. -/
def generate
    (generator : Generator)
    (workflow : Value) :
    Session (Option String) := do
  match ← generator.store.loadClass (.text generator.language) with
  | none => missingTemplate
  | some "" => missingTemplate
  | some template =>
      let nodes ← workflow.get "nodes" (.list [])
      if nodes.isTruthy then
        some <$> generator.fillClass template workflow nodes
      else
        Session.print "Workflow não contém nós."
        return none
where
  missingTemplate : Session (Option String) := do
    Session.print ("Erro: Template de linguagem '" ++ generator.language ++
      "' não encontrado.")
    return none

/-- What is given as the code of a class. -/
inductive Code where
  /-- A text. -/
  | text (content : String)
  /-- A text that has no bytes. -/
  | ragged (content : Text.Ragged)
  /-- A value that is no text. -/
  | other (kind : Kind)
  deriving DecidableEq, Repr

/-- A value as the code of a class. -/
def Code.ofValue : Value → Code
  | .text content => .text content
  | value => .other value.kind

/--
Write code to the file of its workflow; what has no bytes leaves it empty.
-/
def write (file : Path) : Code → Session Unit
  | .text content => Session.writeFile file (.text content)
  | .ragged content => do
      Session.openFile file
      throw (.unencodable content)
  | .other kind => do
      Session.openFile file
      throw (.needsText .writing kind)

/-- Store the code of a workflow, with the credentials beside it. -/
def storing (generator : Generator) (workflow : Value) (code : Code) :
    Session Bool := do
  let _ ← generator.output.ensureCredentials generator.language
  let file ← generator.output.workflowFile workflow generator.language
  write file code
  Session.print ("✓ Arquivo gerado: " ++ file.text)
  return true

/-- Report that code could not be stored. -/
def reportUnsaved (fault : Fault) : Session Bool := do
  Session.print ("Erro ao salvar arquivo: " ++ fault.message)
  return false

/-- Save the code of a workflow, and say whether it went well. -/
def save (generator : Generator) (workflow : Value) (code : Code) :
    Session Bool :=
  Session.guarded (generator.storing workflow code) reportUnsaved

end Generator

end Flowgen.Class
