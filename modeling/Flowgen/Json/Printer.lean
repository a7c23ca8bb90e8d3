import Flowgen.Value.Display

namespace Flowgen.Json

/-!
# Writing JSON

A value is written on one line, or with every item and field on a line of its
own, indented by its depth.  Only quotes, backslashes and control characters of
a text are escaped.
-/

/-- One character inside a text. -/
def escape (character : Char) : List Char :=
  if character = '\x22' ∨ character = '\\' then ['\\', character]
  else if character = '\n' then ['\\', 'n']
  else if character = '\r' then ['\\', 'r']
  else if character = '\t' then ['\\', 't']
  else if character = '\x08' then ['\\', 'b']
  else if character = '\x0c' then ['\\', 'f']
  else if character.toNat < 32 then '\\' :: 'u' ::
    Text.hexadecimal 4 character.toNat
  else [character]

/-- A text between quotes. -/
def quoted (content : String) : List Char :=
  '\x22' :: content.toList.flatMap escape ++ ['\x22']

/--
Doubles are written as in running text, with the words of JSON for the special
ones.
-/
def numberLayout : Decimal.Layout :=
  { realLayout with infinity := "Infinity", notANumber := "NaN" }

/-- A line break with its indentation, or nothing in a document on one line. -/
def lineBreak (indent : Option Nat) (depth : Nat) : List Char :=
  match indent with
  | some width => '\n' :: List.replicate (width * depth) ' '
  | none => []

/-- Written parts between brackets, each on its line. -/
def bracketed
    (indent : Option Nat)
    (depth : Nat)
    (opening closing : Char)
    (parts : List (List Char)) :
    List Char :=
  if parts.isEmpty then
    [opening, closing]
  else
    let separator := ',' :: lineBreak indent (depth + 1)
    opening :: lineBreak indent (depth + 1) ++ List.intercalate separator parts
      ++ lineBreak indent depth ++ [closing]

mutual

/-- A value at a depth. -/
def written (indent : Option Nat) (depth : Nat) : Value → List Char
  | .null => "null".toList
  | .bool true => "true".toList
  | .bool false => "false".toList
  | .int number => (toString number).toList
  | .real number => (numberLayout.writeBinary64 number).toList
  | .text content => quoted content
  | .list items =>
      bracketed indent depth '\x5b' '\x5d'
      (writtenItems indent (depth + 1) items)
  | .object fields =>
      bracketed indent depth '\x7b' '\x7d'
        (writtenFields indent (depth + 1) fields)

/-- The items of a list at a depth. -/
def writtenItems
    (indent : Option Nat)
    (depth : Nat) :
    List Value → List (List Char)
  | [] => []
  | item :: items =>
      written indent depth item :: writtenItems indent depth items

/-- The fields of an object at a depth. -/
def writtenFields
    (indent : Option Nat)
    (depth : Nat) :
    List (String × Value) → List (List Char)
  | [] => []
  | (name, value) :: fields =>
      (quoted name ++ ':' :: ' ' :: written indent depth value)
        :: writtenFields indent depth fields

end

/-- A value as a document, on one line if no indentation is given. -/
def print (indent : Option Nat) (value : Value) : String :=
  String.ofList (written indent 0 value)

end Flowgen.Json
