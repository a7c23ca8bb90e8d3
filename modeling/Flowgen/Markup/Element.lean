import Flowgen.Markup.Entity
import Flowgen.Markup.Token

namespace Flowgen.Markup

/-!
# Elements

A document is a tree of elements.  An element keeps its name, in which a
namespace stands in braces, the text before its first child, and its children.
The rest of a document is checked and forgotten.
-/

/-- An element of a document. -/
inductive Element where
  | node (name : String) (text : Option String) (children : List Element)
  deriving Repr

namespace Element

/-- The name of an element. -/
def name : Element → String
  | .node name _ _ => name

/-- The text before the first child, if there is any. -/
def text : Element → Option String
  | .node _ text _ => text

/-- The children of an element. -/
def children : Element → List Element
  | .node _ _ children => children

/-- The first child with a name. -/
def child? (element : Element) (name : String) : Option Element :=
  element.children.find? fun child => child.name == name

end Element

/-- The namespace of the qualifier `xml`. -/
def xmlNamespace : List Char :=
  "http://www.w3.org/XML/1998/namespace".toList

/-- The namespace of the attributes that declare namespaces. -/
def xmlnsNamespace : List Char :=
  "http://www.w3.org/2000/xmlns/".toList

/-- The namespaces in force: for each qualifier, or for names without one. -/
abbrev Namespaces :=
  List (Option (List Char) × List Char)

/-- The namespaces in force at the start of a document. -/
def initialNamespaces : Namespaces :=
  [(some "xml".toList, xmlNamespace)]

/-- Whether an attribute may bind a qualifier to a namespace. -/
def mayBind (qualifier : Option (List Char)) (space : List Char) : Bool :=
  !space.contains '\x7d' && space != xmlnsNamespace
    && match qualifier with
      | none => space != xmlNamespace
      | some name =>
          !space.isEmpty && name != "xmlns".toList
            && (name == "xml".toList) == (space == xmlNamespace)

/-- The qualifier that an attribute declares, if it declares one. -/
def declaredQualifier? (name : QualifiedName) : Option (Option (List Char)) :=
  match name.qualifier with
  | some qualifier =>
      if qualifier = "xmlns".toList then some (some name.base) else none
  | none => if name.base = "xmlns".toList then some none else none

/-- An attribute with its value. -/
abbrev Binding :=
  QualifiedName × List Char

/-- The namespaces in force after the attributes of an element. -/
def bindAll : Namespaces → List Binding → Option Namespaces
  | namespaces, [] => some namespaces
  | namespaces, (name, value) :: others =>
      match declaredQualifier? name with
      | some qualifier =>
          if mayBind qualifier value then
            bindAll ((qualifier, value) :: namespaces) others
          else
            none
      | none => bindAll namespaces others

/--
The expanded name of an attribute; one without a qualifier has no namespace.
-/
def attributeName? (namespaces : Namespaces) (name : QualifiedName) :
    Option (List Char × List Char) :=
  match name.qualifier with
  | some qualifier => (namespaces.lookup (some qualifier)).map fun space =>
      (space, name.base)
  | none => some ([], name.base)

/-- Whether no element of a list occurs twice. -/
def allDistinct [BEq α] : List α → Bool
  | [] => true
  | first :: rest => !rest.contains first && allDistinct rest

/-- Whether attributes have different names and known qualifiers. -/
def attributesFit (namespaces : Namespaces) (bindings : List Binding) : Bool :=
  let names := bindings.map Prod.fst
  let plain := names.filter fun name => (declaredQualifier? name).isNone
  let expanded := plain.map (attributeName? namespaces)
  allDistinct names && expanded.all Option.isSome && allDistinct expanded

/-- The full name of an element. -/
def elementName?
    (namespaces : Namespaces)
    (name : QualifiedName) :
    Option String :=
  match name.qualifier, namespaces.lookup name.qualifier with
  | some _, none => none
  | none, none => some (String.ofList name.base)
  | _, some space =>
      if space.isEmpty then
        some (String.ofList name.base)
      else
        some (String.ofList ('\x7b' :: space ++ '\x7d' :: name.base))

/--
An element that is still open: its pieces of text and its children are kept
last first.
-/
structure Open where
  written : List Char
  name : String
  text : List (List Char)
  children : List Element
  /-- How many elements are open with it. -/
  level : Nat
  outer : Namespaces
  deriving Repr

/-- The element that an open one becomes when it is closed. -/
def Open.close (element : Open) : Element :=
  let text := element.text.reverse.flatten
  .node element.name
    (if text.isEmpty then none else some (String.ofList text))
    element.children.reverse

/-- What is known in the middle of a document. -/
structure Progress where
  stack : List Open
  namespaces : Namespaces
  root : Option Element
  budget : Budget

namespace Progress

/-- How many elements are open. -/
def level (progress : Progress) : Nat :=
  match progress.stack with
  | [] => 0
  | element :: _ => element.level

/-- Add text to the innermost open element, unless a child stands before it. -/
def addText (content : List Char) (progress : Progress) : Option Progress :=
  match progress.stack with
  | [] => none
  | element :: stack =>
      if element.children.isEmpty then
        some { progress with
          stack := { element with text := content :: element.text } :: stack }
      else
        some progress

/-- Add a finished element where it belongs. -/
def addElement (element : Element) (progress : Progress) : Progress :=
  match progress.stack with
  | [] => { progress with root := some element }
  | outer :: stack =>
      { progress with
        stack := { outer with children := element :: outer.children } :: stack }

end Progress

/--
Whether a value stands for itself: no references, and no space but single ones
inside.
-/
def isSettled (value : List Char) : Bool :=
  !value.contains '&' && !(value.any fun character =>
    isSpace character && character != ' ') && collapsed value == value

/--
Count the values of an opening tag once more, those that stand for themselves
apart.
-/
def Budget.countAgain
    (budget : Budget)
    (manner : Manner)
    (attributes : List Attribute) :
    Budget :=
  let values :=
    (attributes.map Attribute.value).filter fun value => !isSettled value
  let count := values.foldl (fun count value => count + manner.size value) 0
  if manner.isInner then budget.bring count
    else { budget with again := budget.again + count }

/-- The values of attributes as they are written, and the budget after them. -/
def writtenBindings?
    (type : DocumentType)
    (manner : Manner)
    (element : List Char) :
    
    List Attribute → Budget → Option (List Binding × Budget)
  | [], budget => some ([], budget)
  | item :: others, budget => do
      let isText := type.isText element item.name
      let (value, budget) ← valueOf? type manner isText item.value budget
      let (bindings, budget) ← writtenBindings? type manner element others
        budget
      return ((item.name, value) :: bindings, budget)

/--
The values that attributes of an element have by themselves where none is
written.
-/
def ownBindings
    (type : DocumentType)
    (element : List Char)
    (written : List Binding) :
    
    List Binding :=
  (type.rules.filter fun rule => rule.element == element).filterMap fun rule =>
    match rule.value with
    | some value =>
        if written.any fun binding => binding.1 == rule.name then none
        else some (rule.name, value)
    | none => none

namespace Progress

/-- Open an element. -/
def openElement
    (type : DocumentType)
    (manner : Manner)
    (name : QualifiedName)
    (attributes : List Attribute)
    (isEmpty : Bool)
    (progress : Progress) :
    Option Progress := do
  let counted :=
    if isEmpty then progress.budget
      else progress.budget.countAgain manner attributes
  let (written, budget) ← writtenBindings? type manner name.written attributes
    counted
  let bindings := written ++ ownBindings type name.written written
  let namespaces ← bindAll progress.namespaces bindings
  let fullName ← elementName? namespaces name
  if attributesFit namespaces bindings then
    let element : Open :=
      { written := name.written
        name := fullName
        text := []
        children := []
        level := progress.level + 1
        outer := progress.namespaces }
    return ⟨element :: progress.stack, namespaces, progress.root, budget⟩
  else
    none

/--
Close the innermost element, which must have the written name and lie above a
floor.
-/
def closeElement
    (floor : Nat)
    (written : List Char)
    (progress : Progress) :
    Option Progress :=
  match progress.stack with
  | [] => none
  | element :: stack =>
      if element.written = written ∧ floor < element.level then
        some (addElement element.close
          { progress with stack := stack, namespaces := element.outer })
      else
        none

/--
Take one token; `expand` takes an entity, and elements up to the floor stay
open.
-/
def step
    (type : DocumentType)
    (manner : Manner)
    (expand : List Char → Progress → Option Progress)
    (floor : Nat)
    (token : Token)
    (progress : Progress) :
    Option Progress :=
  match token with
  | .ignored => some progress
  | .text content => progress.addText content
  | .named character =>
      { progress with budget := progress.budget.bring 1 }.addText [character]
  | .entity name => expand name progress
  | .opening name attributes isEmpty => do
      let opened ← progress.openElement type manner name attributes isEmpty
      if isEmpty then opened.closeElement floor name.written else return opened
  | .closing written => progress.closeElement floor written

end Progress

/--
Take tokens until the text or the document element ends.  Before a token is
taken, `arrive` is told what follows it.
-/
def feed
    (type : DocumentType)
    (manner : Manner)
    (expand : List Char → Progress → Option Progress)
    (arrive : List Char → Progress → Option Progress)
    (floor : Nat) :
    Nat → List Char → Progress → Option (Progress × List Char)
  | 0, text, progress => if text.isEmpty then some (progress, []) else none
  | fuel + 1, text, progress =>
      if text.isEmpty || progress.root.isSome then
        some (progress, text)
      else
        match token? manner (fuel + 1) text with
        | none => none
        | some (token, rest) =>
            match (arrive rest progress).bind
              (Progress.step type manner expand floor token) with
            | none => none
            | some after => feed type manner expand arrive floor fuel rest after

/-- Take the text of an entity, which must leave the same elements open. -/
def expandEntity
    (type : DocumentType) :
    Nat → List Char → Progress → Option Progress
  | 0, _, _ => none
  | depth + 1, name, progress =>
      match type.entities.lookup name with
      | some (.internal text) => do
          let budget ← progress.budget.bring? (Manner.inner.size text)
          let (after, _) ←
            feed type .inner (expandEntity type depth)
              (fun _ progress => some progress)
              progress.level text.length text { progress with budget := budget }
          if after.level = progress.level then some after else none
      | _ => none

end Flowgen.Markup
