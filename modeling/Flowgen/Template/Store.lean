import Flowgen.Markup.Document
import Flowgen.Session
import Flowgen.Text.Blank

namespace Flowgen.Template

/-!
# Loading templates

Templates lie in a directory, those of classes under `languages` and those of
methods under `nodes`.  A method template may have a version for a language in
a directory of its own.  A template that is missing or cannot be read is
reported and counts as none.
-/

/-- A directory of templates. -/
structure Store where
  directory : Path
  deriving Repr

/-- The template of a method, with the name it gives itself. -/
structure NodeTemplate where
  name : Value
  method : String
  deriving Repr

namespace Store

/-- The directory that the program uses. -/
def standard : Store where
  directory := .ofText "templates"

/-- The directory of the method templates. -/
def nodes (store : Store) : Path :=
  store.directory.join "nodes"

/-- The file of the class template for a language. -/
def classFile (store : Store) (language : Value) : Path :=
  (store.directory.join "languages").join (language.display ++ ".xml")

/--
The text of a class template from its document; there is none without a
`class` element.
-/
def classText (document : Markup.Element) : Except Fault (Option String) :=
  match document.child? "class" with
  | none => .ok none
  | some element =>
      match element.text with
      | some text => .ok (some (Text.trim text))
      | none => .error (.noOperation .null .strip)

/-- The class template for a language. -/
def loadClass (store : Store) (language : Value) : Session (Option String) := do
  let file := store.classFile language
  if ← Session.pathExists file then
    Session.guarded
      (do
        let content ← Session.readFile file
        classText (← Markup.parse content))
      fun fault => do
        Session.print ("Erro ao carregar template de linguagem: " ++
          fault.message)
        return none
  else
    Session.print ("Template de linguagem não encontrado: " ++ file.text)
    return none

/--
A method template from its document; it needs a `name` and a `method` element.
-/
def nodeTemplate
    (type : Value)
    (document : Markup.Element) :
    Option NodeTemplate :=
  match document.child? "name", document.child? "method" with
  | some name, some method =>
      some
        { name := match name.text with
            | some text => .text (Text.trim text)
            | none => type
          method := match method.text with
            | some text => Text.trim text
            | none => "" }
  | _, _ => none

/-- The file of a method template for one language. -/
def ownFile (store : Store) (type language : String) : Path :=
  (store.nodes.join language).join (type ++ ".xml")

/-- The file of a method template for all languages. -/
def commonFile (store : Store) (type : String) : Path :=
  store.nodes.join (type ++ ".xml")

/--
The file of a method template: the one for the language, else the common one.
-/
def nodeFile (store : Store) (type language : Value) : Session Path := do
  let own := store.ownFile type.display (← Path.partOfValue language)
  if ← Session.pathExists own then
    return own
  else
    return store.commonFile type.display

/-- The method template for a type of nodes in a language. -/
def loadNode
    (store : Store)
    (type language : Value) :
    Session (Option NodeTemplate) := do
  let file ← store.nodeFile type language
  if ← Session.pathExists file then
    Session.guarded
      (do
        let content ← Session.readFile file
        return nodeTemplate type (← Markup.parse content))
      fun fault => do
        Session.print ("Erro ao carregar template de nó: " ++ fault.message)
        return none
  else
    Session.print ("Template de nó não encontrado: " ++ file.text)
    return none

/-- The names of the common method templates, in increasing order. -/
def nodeNames (store : Store) : Session (List String) := do
  if ← Session.pathExists store.nodes then
    let names := (← get).files.namesIn store.nodes
    let stems :=
      (names.filter fun name => Text.endsWith name ".xml").map Path.stem
    return stems.mergeSort fun first second => first ≤ second
  else
    return []

end Store

end Flowgen.Template
