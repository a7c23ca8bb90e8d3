import Flowgen.Markup.NameTable
import Flowgen.Text.Letters
import Flowgen.Text.Lines

namespace Flowgen.Markup

/-!
# The small parts of markup

Names, references, quoted values, comments and instructions.  Every scanner
takes a text that starts with its part and gives what follows it, or nothing if
the text does not start so.
-/

/--
The letters of names: in some encodings the signs `ª`, `µ` and `º` are letters
too.
-/
inductive Alphabet where
  | standard
  | extended
  deriving DecidableEq, Repr

/--
How a text is read: the document itself, or the text of an entity inside it.
-/
structure Manner where
  alphabet : Alphabet
  /-- How many bytes a character takes. -/
  width : Char → Nat
  isInner : Bool

namespace Manner

/-- How the text of an entity is read. -/
def inner : Manner where
  alphabet := .standard
  width := Char.utf8Size
  isInner := true

/-- A text with its line ends unified, unless that has been done before. -/
def lines (manner : Manner) (text : List Char) : List Char :=
  if manner.isInner then text else Text.unifiedLineEnds text

/-- How many bytes a text takes. -/
def size (manner : Manner) (text : List Char) : Nat :=
  text.foldl (fun count character => count + manner.width character) 0

end Manner

/-- Whether a character may stand in a document at all. -/
def isAllowed (character : Char) : Bool :=
  let code := character.toNat
  code == 9 || code == 10 || code == 13 ||
  (32 ≤ code && code != 0xFFFE && code != 0xFFFF)

/-- Whether a character is space between the parts of markup. -/
def isSpace (character : Char) : Bool :=
  character == ' ' || character == '\t' || character == '\n' ||
    character == '\r'

namespace Alphabet

/-- Whether an alphabet has a sign as a letter that others do not have. -/
def hasSign (alphabet : Alphabet) (code : Nat) : Bool :=
  alphabet == .extended && (code == 0xAA || code == 0xB5 || code == 0xBA)

/-- Whether a character may start a name. -/
def startsName (alphabet : Alphabet) (character : Char) : Bool :=
  if character.toNat < 128 then
    character.isAlpha || character == '_'
  else
    alphabet.hasSign character.toNat ||
      Text.inRanges nameStartRanges character.toNat

/-- Whether a character may go on in a name. -/
def continuesName (alphabet : Alphabet) (character : Char) : Bool :=
  if character.toNat < 128 then
    character.isAlphanum || character == '_' || character == '-' ||
      character == '.'
  else
    alphabet.hasSign character.toNat ||
      Text.inRanges nameStartRanges character.toNat
      || Text.inRanges nameExtraRanges character.toNat

end Alphabet

/-- A text without leading space. -/
def skipSpace (text : List Char) : List Char :=
  text.dropWhile isSpace

/-- A text without leading space, of which there must be some. -/
def needSpace? (text : List Char) : Option (List Char) :=
  match text with
  | [] => none
  | character :: rest =>
      if isSpace character then some (skipSpace rest) else none

/-- A name without colons. -/
def simpleName?
    (alphabet : Alphabet)
    (text : List Char) :
    Option (List Char × List Char) :=
  match text with
  | [] => none
  | character :: rest =>
      if alphabet.startsName character then
        some
          (character :: rest.takeWhile alphabet.continuesName,
           rest.dropWhile alphabet.continuesName)
      else
        none

/-- A name with or without a qualifier in front of a colon. -/
structure QualifiedName where
  qualifier : Option (List Char)
  base : List Char
  deriving DecidableEq, Repr

/-- The name as it is written. -/
def QualifiedName.written (name : QualifiedName) : List Char :=
  match name.qualifier with
  | some qualifier => qualifier ++ ':' :: name.base
  | none => name.base

/-- A qualified name. -/
def qualifiedName? (alphabet : Alphabet) (text : List Char) :
    Option (QualifiedName × List Char) := do
  let (first, rest) ← simpleName? alphabet text
  match rest with
  | ':' :: rest =>
      let (second, rest) ← simpleName? alphabet rest
      return (⟨some first, second⟩, rest)
  | _ => return (⟨none, first⟩, rest)

/--
The text up to a pattern, behind what was passed before, last first; and what
follows it.
-/
def upToFrom?
    (pattern passed : List Char) :
    List Char → Option (List Char × List Char)
  | [] => none
  | character :: text =>
      match Text.after? pattern (character :: text) with
      | some rest => some (passed.reverse, rest)
      | none => upToFrom? pattern (character :: passed) text

/-- The text up to a pattern, and what follows the pattern. -/
def upTo? (pattern text : List Char) : Option (List Char × List Char) :=
  upToFrom? pattern [] text

/-- A value between single or double quotes. -/
def quotedValue? (text : List Char) : Option (List Char × List Char) :=
  match text with
  | '\x22' :: rest => upTo? ['\x22'] rest
  | '\x27' :: rest => upTo? ['\x27'] rest
  | _ => none

/-- What follows a comment, after its opening: two hyphens only end it. -/
def afterComment? (text : List Char) : Option (List Char) := do
  let (_, rest) ← upTo? ['-', '-'] text
  Text.after? ['>'] rest

/-- Whether a name is the one reserved for the declaration, in any case. -/
def isReservedTarget (name : List Char) : Bool :=
  name.map Char.toLower == ['x', 'm', 'l']

/-- What follows an instruction, after its opening. -/
def afterInstruction?
    (alphabet : Alphabet)
    (text : List Char) :
    Option (List Char) := do
  let (target, rest) ← simpleName? alphabet text
  if isReservedTarget target then
    none
  else
    match Text.after? ['?', '>'] rest with
    | some rest => return rest
    | none =>
        let rest ← needSpace? rest
        return (← upTo? ['?', '>'] rest).2

/-- The character with a number, if it may stand in a document. -/
def characterOf? (number : Nat) : Option Char :=
  if number < 0x110000 ∧ ¬(0xD800 ≤ number ∧ number < 0xE000) ∧
    isAllowed (Char.ofNat number) then
    some (Char.ofNat number)
  else
    none

/--
The value of digits in a base; numbers beyond all characters need not be
exact.
-/
def digitsValue (base : Nat) (digits : List Char) : Nat :=
  digits.foldl
    (fun number digit =>
      let value :=
        if digit.isDigit then digit.toNat - 48
        else if digit.toNat < 97 then digit.toNat - 55
        else digit.toNat - 87
      min 0x110000 (number * base + value))
    0

/-- Whether a character is a hexadecimal digit. -/
def isHexDigit (character : Char) : Bool :=
  character.isDigit || ('a' ≤ character && character ≤ 'f') ||
    ('A' ≤ character && character ≤ 'F')

/--
A reference: to a character by number or by a name that all documents know, or
to an entity.
-/
inductive Reference where
  | numbered (value : Char)
  | named (value : Char)
  | entity (name : List Char)
  deriving DecidableEq, Repr

/-- A reference to a character by digits of a base. -/
def numericReference? (base : Nat) (isDigit : Char → Bool) (text : List Char) :
    Option (Reference × List Char) := do
  let digits := text.takeWhile isDigit
  let rest ← Text.after? [';'] (text.dropWhile isDigit)
  if digits.isEmpty then
    none
  else
    return (.numbered (← characterOf? (digitsValue base digits)), rest)

/-- The characters that have a name in every document. -/
def predefined : List (List Char × Char) :=
  [("amp".toList, '&'), ("lt".toList, '<'), ("gt".toList, '>'),
   ("apos".toList, '\x27'), ("quot".toList, '\x22')]

/-- A reference, after its ampersand. -/
def reference?
    (alphabet : Alphabet)
    (text : List Char) :
    Option (Reference × List Char) :=
  match text with
  | '#' :: 'x' :: rest => numericReference? 16 isHexDigit rest
  | '#' :: rest => numericReference? 10 Char.isDigit rest
  | _ => do
      let (name, rest) ← simpleName? alphabet text
      let rest ← Text.after? [';'] rest
      match predefined.lookup name with
      | some character => return (.named character, rest)
      | none => return (.entity name, rest)

end Flowgen.Markup
