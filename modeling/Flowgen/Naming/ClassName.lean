import Flowgen.Text.Blank
import Flowgen.Text.Case
import Flowgen.Value.Access

namespace Flowgen.Naming

/-!
# Class names

A workflow becomes a class whose name is the workflow's name in Pascal case:
only letters, numerals and white space count, and each word is capitalised.
-/

/-- Whether a text has characters and all of them are of a class. -/
def consistsOf (isMember : Char → Bool) (text : List Char) : Bool :=
  !text.isEmpty && text.all isMember

/-- Whether a piece of a name counts: all alphanumeric or all blank. -/
def isKept (piece : List Char) : Bool :=
  consistsOf Text.isAlphanumeric piece || consistsOf Text.isBlank piece

/-- The pieces of a name that count, one after the other. -/
def keptPieces : List Value → Except Fault (List Char)
  | [] => .ok []
  | piece :: pieces => do
      let text ← piece.textFor .isAlphanumeric
      let rest ← keptPieces pieces
      return (if isKept text.toList then text.toList else []) ++ rest

/-- The words of a text, each capitalised, without what stands between them. -/
def pascalCase (text : List Char) : List Char :=
  (Text.wordsOf text).flatMap Text.capitalized

/-- The name of a class that has no other. -/
def fallbackClass : List Char :=
  "Workflow".toList

/-- A class name that starts with a letter. -/
def startedAsClass (name : List Char) : List Char :=
  match name with
  | [] => fallbackClass
  | first :: _ => if Text.isLetter first then name else fallbackClass ++ name

/-- The name of the class for a workflow. -/
def className (workflow : Value) : Except Fault String := do
  let name ← workflow.get "name" (.text "Workflow")
  let pieces ← name.elements
  let kept ← keptPieces pieces
  return String.ofList (startedAsClass (pascalCase kept))

end Flowgen.Naming
