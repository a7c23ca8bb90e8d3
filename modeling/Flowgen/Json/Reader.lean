import Flowgen.Value.Number

namespace Flowgen.Json

/-!
# Reading JSON

A document is read into a `Value` with its fields in order; a repeated name
keeps its first place and takes its last value.  Besides standard JSON the
words `NaN`, `Infinity` and `-Infinity` are numbers.  Characters below the space
must be escaped inside a text.  Every reader returns what follows its part of
the document.
-/

/-- Whether a character may stand between the parts of a document. -/
def isSpace (character : Char) : Bool :=
  character == ' ' || character == '\t' || character == '\n' ||
    character == '\r'

/-- A document without leading space. -/
def skipSpace (text : List Char) : List Char :=
  text.dropWhile isSpace

/-- The value of a hexadecimal digit. -/
def hexDigit? (character : Char) : Option Nat :=
  if character.isDigit then
    some (character.toNat - 48)
  else if 'a' ≤ character ∧ character ≤ 'f' then
    some (character.toNat - 87)
  else if 'A' ≤ character ∧ character ≤ 'F' then
    some (character.toNat - 55)
  else
    none

/-- The code unit that four hexadecimal digits spell. -/
def codeUnit? (first second third fourth : Char) : Option Nat := do
  let a ← hexDigit? first
  let b ← hexDigit? second
  let c ← hexDigit? third
  let d ← hexDigit? fourth
  some (((a * 16 + b) * 16 + c) * 16 + d)

/-- The character that an escape of one letter stands for. -/
def escaped? (letter : Char) : Option Char :=
  if letter = '\x22' ∨ letter = '\\' ∨ letter = '/' then some letter
  else if letter = 'b' then some '\x08'
  else if letter = 'f' then some '\x0c'
  else if letter = 'n' then some '\n'
  else if letter = 'r' then some '\r'
  else if letter = 't' then some '\t'
  else none

/-- Put a code in front of the codes of a text that is still being read. -/
def addUnit
    (unit : Nat)
    (result : List Nat × List Char) :
    List Nat × List Char :=
  (unit :: result.1, result.2)

/--
The codes of a text after its opening quote, and what follows its closing
quote.
-/
def units? : List Char → Option (List Nat × List Char)
  | [] => none
  | '\x22' :: rest => some ([], rest)
  | '\\' :: 'u' :: first :: second :: third :: fourth :: rest =>
      match codeUnit? first second third fourth with
      | some unit => (units? rest).map (addUnit unit)
      | none => none
  | '\\' :: letter :: rest =>
      match escaped? letter with
      | some character => (units? rest).map (addUnit character.toNat)
      | none => none
  | character :: rest =>
      if character.toNat < 32 ∨ character = '\\' then
        none
      else
        (units? rest).map (addUnit character.toNat)

/-- Whether a code is the first half of a pair. -/
def isHighHalf (unit : Nat) : Bool :=
  0xD800 ≤ unit && unit < 0xDC00

/-- Whether a code is the second half of a pair. -/
def isLowHalf (unit : Nat) : Bool :=
  0xDC00 ≤ unit && unit < 0xE000

/--
The characters that codes stand for.  A text is made of characters alone, so
that a half without its other half cannot be kept: the replacement character
stands for it.
-/
def joinHalves : List Nat → List Char
  | [] => []
  | [unit] =>
      [if isHighHalf unit || isLowHalf unit then '\uFFFD' else Char.ofNat unit]
  | first :: second :: units =>
      if isHighHalf first && isLowHalf second then
        Char.ofNat (0x10000 + (first - 0xD800) * 0x400 + (second - 0xDC00)) ::
          joinHalves units
      else
        (if isHighHalf first || isLowHalf first then '\uFFFD'
          else Char.ofNat first) :: joinHalves (second :: units)

/-- A text after its opening quote. -/
def text? (text : List Char) : Option (String × List Char) :=
  (units? text).map fun result =>
    (String.ofList (joinHalves result.1), result.2)

/-- The digits of an integer without sign: a single zero, or no leading zero. -/
def wholeDigits (text : List Char) : List Char :=
  match text with
  | '0' :: _ => ['0']
  | _ => text.takeWhile Char.isDigit

/-- A point with digits, if it stands there, and what follows. -/
def fractionDigits (text : List Char) : List Char × List Char :=
  match text with
  | '.' :: rest =>
      let digits := rest.takeWhile Char.isDigit
      if digits.isEmpty then ([], text)
        else (digits, rest.dropWhile Char.isDigit)
  | _ => ([], text)

/-- An exponent with digits, if it stands there, and what follows. -/
def exponentPart (text : List Char) : Option Int × List Char :=
  match text with
  | mark :: rest =>
      let signed := Numeral.sign rest
      let digits := signed.2.takeWhile Char.isDigit
      if (mark == 'e' || mark == 'E') && !digits.isEmpty then
        let size : Int := Numeral.ofDigits digits
        (some (if signed.1 then -size else size),
          signed.2.dropWhile Char.isDigit)
      else
        (none, text)
  | [] => (none, text)

/-- A number without its sign. -/
def number
    (negative : Bool)
    (text : List Char) :
    Except Fault (Value × List Char) :=
  let whole := wholeDigits text
  let afterWhole := text.drop whole.length
  let fraction := fractionDigits afterWhole
  let exponent := exponentPart fraction.2
  if whole.isEmpty then
    .error .malformedJson
  else if fraction.1.isEmpty && exponent.1.isNone then
    if Numeral.digitLimit < whole.length then
      .error (.tooManyDigits whole.length)
    else
      let size : Int := Numeral.ofDigits whole
      .ok (.int (if negative then -size else size), afterWhole)
  else
    let decimal : Decimal :=
      ⟨Numeral.ofDigits (whole ++ fraction.1),
        exponent.1.getD 0 - fraction.1.length⟩
    .ok (.real (decimal.toBinary64 negative), exponent.2)

/-- The words that stand for values. -/
def wordValues : List (List Char × Value) :=
  [("null".toList, .null),
   ("true".toList, .bool true),
   ("false".toList, .bool false),
   ("NaN".toList, .real .nan),
   ("Infinity".toList, .real (.infinite false)),
   ("-Infinity".toList, .real (.infinite true))]

/-- The first word that the document starts with. -/
def word? (text : List Char) : Option (Value × List Char) :=
  wordValues.findSome? fun entry =>
    (Text.after? entry.1 text).map fun rest => (entry.2, rest)

/-- A value that is no list and no object. -/
def scalar (text : List Char) : Except Fault (Value × List Char) :=
  match word? text with
  | some result => .ok result
  | none =>
      match text with
      | '\x22' :: rest =>
          match text? rest with
          | some (content, rest) => .ok (.text content, rest)
          | none => .error .malformedJson
      | '-' :: rest => number true rest
      | _ => number false text

mutual

/-- A value; `fuel` bounds how many parts are read. -/
def value : Nat → List Char → Except Fault (Value × List Char)
  | 0, _ => .error .malformedJson
  | fuel + 1, '\x5b' :: rest =>
      match skipSpace rest with
      | '\x5d' :: rest => .ok (.list [], rest)
      | rest => (items fuel rest).map fun result => (.list result.1, result.2)
  | fuel + 1, '\x7b' :: rest =>
      match skipSpace rest with
      | '\x7d' :: rest => .ok (.object [], rest)
      | rest => (fields fuel [] rest).map fun result =>
          (.object result.1, result.2)
  | _ + 1, text => scalar text

/-- The items of a list up to its closing bracket. -/
def items : Nat → List Char → Except Fault (List Value × List Char)
  | 0, _ => .error .malformedJson
  | fuel + 1, text =>
      match value fuel text with
      | .error fault => .error fault
      | .ok (item, rest) =>
          match skipSpace rest with
          | ',' :: rest =>
              (items fuel (skipSpace rest)).map fun result =>
                (item :: result.1, result.2)
          | '\x5d' :: rest => .ok ([item], rest)
          | _ => .error .malformedJson

/--
The fields of an object up to its closing brace, added to those read before.
-/
def fields : Nat → Fields → List Char → Except Fault (Fields × List Char)
  | fuel + 1, before, '\x22' :: text =>
      match text? text with
      | none => .error .malformedJson
      | some (name, rest) =>
          match skipSpace rest with
          | ':' :: rest =>
              match value fuel (skipSpace rest) with
              | .error fault => .error fault
              | .ok (content, rest) =>
                  let extended := Fields.set name content before
                  match skipSpace rest with
                  | ',' :: rest => fields fuel extended (skipSpace rest)
                  | '\x7d' :: rest => .ok (extended, rest)
                  | _ => .error .malformedJson
          | _ => .error .malformedJson
  | _, _, _ => .error .malformedJson

end

/-- The value of a whole document. -/
def parse (text : String) : Except Fault Value :=
  let document := skipSpace text.toList
  match value (2 * document.length + 2) document with
  | .error fault => .error fault
  | .ok (result, rest) =>
      if (skipSpace rest).isEmpty then .ok result else .error .malformedJson

end Flowgen.Json
