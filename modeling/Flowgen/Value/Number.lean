import Flowgen.Number.Decimal
import Flowgen.Text.Blank
import Flowgen.Value.Access

namespace Flowgen

/-!
# Numbers read from values

A parameter that should be a number may also be a text that spells one, with
white space around it, digits of any script, and single underscores between
digits.
-/

namespace Numeral

/-- White space around a number; the information separators do not count. -/
def isSpace (character : Char) : Bool :=
  Text.isBlank character && !(28 ≤ character.toNat && character.toNat ≤ 31)

/-- A text with its digits in ASCII and the space around it dropped. -/
def normalized (text : List Char) : List Char :=
  (Text.dropEnd isSpace (Text.dropStart isSpace text)).map fun character =>
    match Text.digitValue? character with
    | some digit => Char.ofNat (48 + digit)
    | none => character

/-- A leading sign, and what follows it. -/
def sign : List Char → Bool × List Char
  | '-' :: text => (true, text)
  | '+' :: text => (false, text)
  | text => (false, text)

/--
Whether every underscore stands between two digits; `before` is the character
before.
-/
def underscoresFit (before : Char) : List Char → Bool
  | [] => before != '_'
  | character :: text =>
      (if character = '_' then before.isDigit
        else before != '_' || character.isDigit)
        && underscoresFit character text

/-- The value of a run of ASCII digits. -/
def ofDigits (digits : List Char) : Nat :=
  digits.foldl (fun number digit => 10 * number + (digit.toNat - 48)) 0

/-- An exponent mark with its digits, or nothing at all. -/
def exponent? : List Char → Option Int
  | [] => some 0
  | mark :: text =>
      if mark = 'e' ∨ mark = 'E' then
        let signed := sign text
        if signed.2.isEmpty || !signed.2.all Char.isDigit then
          none
        else
          some (if signed.1 then -(ofDigits signed.2 : Int)
            else ofDigits signed.2)
      else
        none

/-- A decimal without sign, all of whose text is used up. -/
def decimal? (text : List Char) : Option Decimal :=
  let whole := text.takeWhile Char.isDigit
  let afterWhole := text.dropWhile Char.isDigit
  let fraction :=
    match afterWhole with
    | '.' :: rest => rest.takeWhile Char.isDigit
    | _ => []
  let afterFraction :=
    match afterWhole with
    | '.' :: rest => rest.dropWhile Char.isDigit
    | rest => rest
  if whole.isEmpty && fraction.isEmpty then
    none
  else
    (exponent? afterFraction).map fun exponent =>
      ⟨ofDigits (whole ++ fraction), exponent - fraction.length⟩

/-- The double that a text spells. -/
def real? (text : List Char) : Option Binary64 :=
  let spelled := normalized text
  if !underscoresFit '\x00' spelled then
    none
  else
    let signed := sign (spelled.filter fun character => character != '_')
    let word := signed.2.map Char.toLower
    if word = "inf".toList ∨ word = "infinity".toList then
      some (.infinite signed.1)
    else if word = "nan".toList then
      some .nan
    else
      (decimal? signed.2).map (Decimal.toBinary64 signed.1)

/-- The greatest number of digits an integer may be spelled with. -/
def digitLimit : Nat :=
  4300

/--
Whether a run of digits and underscores has no two underscores in a row and
none at its end.
-/
def singleUnderscores : List Char → Bool
  | [] => true
  | ['_'] => false
  | '_' :: '_' :: _ => false
  | _ :: text => singleUnderscores text

/-- The integer that a text spells. -/
def integer (text : String) : Except Fault Int :=
  let signed := sign (normalized text.toList)
  let isPart := fun (character : Char) => character.isDigit || character == '_'
  let run := signed.2.takeWhile isPart
  let digits := run.filter Char.isDigit
  if run.head? == some '_' || !singleUnderscores run then
    .error (.badInteger text)
  else if digitLimit < digits.length then
    .error (.tooManyDigits digits.length)
  else if digits.isEmpty || !(signed.2.dropWhile isPart).isEmpty then
    .error (.badInteger text)
  else
    .ok (if signed.1 then -(ofDigits digits : Int) else ofDigits digits)

end Numeral

namespace Value

/--
The double nearest to an integer, if the range of doubles reaches that far.
-/
def realOfInt (number : Int) : Except Fault Binary64 :=
  let nearest := Binary64.ofInt number
  if nearest.isFinite then .ok nearest else .error .tooLarge

/-- A value as a double. -/
def toReal : Value → Except Fault Binary64
  | .bool flag => .ok (.ofInt (if flag then 1 else 0))
  | .int number => realOfInt number
  | .real number => .ok number
  | .text content =>
      match Numeral.real? content.toList with
      | some number => .ok number
      | none => .error (.badReal content)
  | other => .error (.notReal other.kind)

/-- A value as an integer; a fraction is dropped. -/
def toInteger : Value → Except Fault Int
  | .bool flag => .ok (if flag then 1 else 0)
  | .int number => .ok number
  | .real number =>
      match number.truncate? with
      | some whole => .ok whole
      | none => .error (if number = .nan then .notANumber else .infinite)
  | .text content => Numeral.integer content
  | other => .error (.notInteger other.kind)

end Value

end Flowgen
