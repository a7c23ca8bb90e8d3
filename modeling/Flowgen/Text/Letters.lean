import Flowgen.Text.LetterTable

namespace Flowgen.Text

/-!
# Letters, numerals and digits

ASCII characters are decided without a table, so that statements about ASCII
text need no table either.
-/

/-- Whether a character is a letter. -/
def isLetter (character : Char) : Bool :=
  if character.toNat < 128 then
    character.isAlpha
  else
    inRanges letterRanges character.toNat

/-- Whether a character is a letter or has a numeric value. -/
def isAlphanumeric (character : Char) : Bool :=
  if character.toNat < 128 then
    character.isAlphanum
  else
    inRanges letterRanges character.toNat ||
      inRanges numeralRanges character.toNat

/-- The value of a decimal digit of any script. -/
def digitValue? (character : Char) : Option Nat :=
  let code := character.toNat
  if code < 128 then
    if character.isDigit then some (code - 48) else none
  else
    (zeroDigits.find? fun first => first ≤ code && code < first + 10).map
      fun first => code - first

end Flowgen.Text
