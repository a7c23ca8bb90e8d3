import Flowgen.Markup.Scan

namespace Flowgen.Markup

/-!
# Tokens of markup

What stands inside an element: tags, text and references.  Comments and
instructions are read over.
-/

/-- An attribute with its value as it is written. -/
structure Attribute where
  name : QualifiedName
  value : List Char
  deriving DecidableEq, Repr

/-- A token inside an element. -/
inductive Token where
  | opening (name : QualifiedName) (attributes : List Attribute)
      (isEmpty : Bool)
  | closing (name : List Char)
  | text (content : List Char)
  /-- A character by a name that all documents know. -/
  | named (character : Char)
  | entity (name : List Char)
  | ignored
  deriving Repr

/-- One attribute. -/
def attribute?
    (alphabet : Alphabet)
    (text : List Char) :
    Option (Attribute × List Char) := do
  let (name, rest) ← qualifiedName? alphabet text
  let rest ← Text.after? ['='] (skipSpace rest)
  let (value, rest) ← quotedValue? (skipSpace rest)
  if value.contains '<' then
    none
  else
    return (⟨name, value⟩, rest)

/--
The attributes of an opening tag up to its end, and whether the element is
empty.
-/
def attributes? (alphabet : Alphabet) :
    Nat → List Char → Option (List Attribute × Bool × List Char)
  | 0, _ => none
  | fuel + 1, text =>
      match skipSpace text with
      | '>' :: rest => some ([], false, rest)
      | '/' :: '>' :: rest => some ([], true, rest)
      | _ => do
          let rest ← needSpace? text
          let (first, rest) ← attribute? alphabet rest
          let (others, isEmpty, rest) ← attributes? alphabet fuel rest
          return (first :: others, isEmpty, rest)

/--
An opening tag, after its bracket; `fuel` bounds the number of its attributes.
-/
def openingTag? (alphabet : Alphabet) (fuel : Nat) (text : List Char) :
    Option (Token × List Char) := do
  let (name, rest) ← qualifiedName? alphabet text
  let (attributes, isEmpty, rest) ← attributes? alphabet fuel rest
  return (.opening name attributes isEmpty, rest)

/-- A closing tag, after its bracket and slash. -/
def closingTag?
    (alphabet : Alphabet)
    (text : List Char) :
    Option (Token × List Char) :=
  match text with
  | [] => none
  | character :: rest =>
      if alphabet.startsName character then do
        let isInside :=
          fun character => alphabet.continuesName character || character == ':'
        let name := character :: rest.takeWhile isInside
        let rest ← Text.after? ['>'] (skipSpace (rest.dropWhile isInside))
        return (.closing name, rest)
      else
        none

/-- Whether a character of a text run ends it. -/
def endsText (character : Char) : Bool :=
  character == '<' || character == '&'

/--
The first token of a text that is not empty; `fuel` bounds the number of its
attributes.
-/
def token?
    (manner : Manner)
    (fuel : Nat)
    (text : List Char) :
    Option (Token × List Char) :=
  match text with
  | '<' :: '/' :: rest => closingTag? manner.alphabet rest
  | '<' :: '!' :: rest =>
      match Text.after? ['-', '-'] rest with
      | some rest => (afterComment? rest).map fun rest => (.ignored, rest)
      | none => do
          let rest ← Text.after? "[CDATA[".toList rest
          let (content, rest) ← upTo? "]]>".toList rest
          return (.text (manner.lines content), rest)
  | '<' :: '?' :: rest =>
      (afterInstruction? manner.alphabet rest).map fun rest => (.ignored, rest)
  | '<' :: rest => openingTag? manner.alphabet fuel rest
  | '&' :: rest =>
      (reference? manner.alphabet rest).map fun (reference, rest) =>
        match reference with
        | .numbered character => (.text [character], rest)
        | .named character => (.named character, rest)
        | .entity name => (.entity name, rest)
  | _ =>
      let run := text.takeWhile fun character => !endsText character
      if Text.occurs "]]>".toList run then
        none
      else
        some (.text (manner.lines run), text.drop run.length)

end Flowgen.Markup
