import Flowgen.Text.Blank
import Flowgen.Text.Decomposition
import Flowgen.Value.Access

namespace Flowgen.Naming

/-!
# Method names

A node becomes a method whose name is the node's name in camel case.  Accents
are dropped by canonical decomposition, punctuation separates words, and a name
that could not stand in a class is changed until it can.
-/

/-- Whether an ASCII character is a letter, a digit or an underscore. -/
def isWordCharacter (character : Char) : Bool :=
  character.isAlphanum || character == '_'

/--
A text with a space in place of everything that is neither word character nor
blank.
-/
def punctuationDropped (text : List Char) : List Char :=
  text.map fun character =>
    if isWordCharacter character ||
      Text.isBlank character then character else ' '

/-- Whether a character separates the words of a name. -/
def separatesWords (character : Char) : Bool :=
  Text.isBlank character || character == '-' || character == '_'

/--
An ASCII word with its first character in upper case and the rest in lower
case.
-/
def capitalizedWord : List Char → List Char
  | [] => []
  | character :: word => character.toUpper :: word.map Char.toLower

/-- Words in camel case. -/
def camelWords : List (List Char) → List Char
  | [] => []
  | first :: words => first.map Char.toLower ++ words.flatMap capitalizedWord

/-- The name of a node that has none. -/
def fallbackName : List Char :=
  "node".toList

/-- A text, or the fallback if it is empty. -/
def orFallback (text : List Char) : List Char :=
  if text.isEmpty then fallbackName else text

/-- A text in camel case, in ASCII letters and digits only. -/
def camelCase (text : List Char) : List Char :=
  let plain := Text.asciiResidue (Text.decomposed text)
  let words := Text.runsOutside separatesWords (punctuationDropped plain)
  orFallback ((camelWords words).filter Char.isAlphanum)

/-- The camel case of a value; only a text that is not empty has any letters. -/
def camelCaseOf (value : Value) : Except Fault String :=
  if value.isTruthy then
    (value.textAs .decomposition).map fun text =>
      String.ofList (camelCase text.toList)
  else
    .ok (String.ofList fallbackName)

/-- The words that no method may be called, in lower case. -/
def reservedWords : List String :=
  ["if", "else", "elseif", "while", "for", "foreach", "switch", "case",
   "default", "break", "continue", "return", "function", "class", "interface",
   "trait", "namespace", "use", "as", "public", "private", "protected",
   "static",
   "abstract", "final", "const", "var", "new", "clone", "instanceof", "try",
   "catch", "finally", "throw", "extends", "implements", "self", "parent",
   "true", "false", "null", "array", "string", "int", "float", "bool",
   "void", "mixed", "object", "callable", "iterable"]

/-- A name that starts with a lower-case letter. -/
def startedByLetter (name : List Char) : List Char :=
  match name with
  | [] => fallbackName
  | first :: rest =>
      if first.isAlpha then
        first.toLower :: rest
      else
        fallbackName ++ capitalizedWord name

/-- A name that is not reserved. -/
def unreserved (name : List Char) : List Char :=
  if reservedWords.contains (String.ofList (name.map Char.toLower)) then
    name ++ "Node".toList
  else
    name

/-- The method name for the camel case of a node's name. -/
def methodNameOf (camel : String) : String :=
  String.ofList (unreserved (startedByLetter camel.toList))

/--
The name that a node goes by: its own, or the last part of its type if that is
blank.
-/
def sourceName (node : Value) : Except Fault Value := do
  let name ← node.get "name" (.text "node")
  let isBlankName ←
    if name.isTruthy then
      (name.textFor .strip).map fun text => Text.trim text == ""
    else
      .ok true
  if isBlankName then
    let type ← node.get "type" (.text "unknown")
    let text ← type.textFor .split
    return .text ((Text.split text ".").getLast?.getD "node")
  else
    return name

/-- The name of the method for a node. -/
def methodName (node : Value) : Except Fault String := do
  let name ← sourceName node
  return methodNameOf (← camelCaseOf name)

end Flowgen.Naming
