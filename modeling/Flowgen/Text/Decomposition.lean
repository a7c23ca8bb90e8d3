import Flowgen.Text.DecompositionTable

namespace Flowgen.Text

/-!
# Canonical decomposition

A text in its canonical decomposition: every character is replaced by what it
decomposes into, and runs of combining marks are put in the order of their
classes.  Hangul syllables decompose by arithmetic, all others by table.
-/

/--
The parts of a Hangul syllable: a leading consonant, a vowel, and perhaps a
final one.
-/
def hangulParts (code : Nat) : List Nat :=
  let index := code - 0xAC00
  let final := index % 28
  [0x1100 + index / 588, 0x1161 + index % 588 / 28] ++ if final =
    0 then [] else [0x11A7 + final]

/-- What one character decomposes into. -/
def decomposeCharacter (character : Char) : List Char :=
  let code := character.toNat
  if code < 128 then
    [character]
  else if 0xAC00 ≤ code ∧ code ≤ 0xD7A3 then
    (hangulParts code).map Char.ofNat
  else
    match decompositions.lookup code with
    | some parts => parts.map Char.ofNat
    | none => [character]

/-- The combining class of a character; zero for all that do not combine. -/
def combiningClass (character : Char) : Nat :=
  let code := character.toNat
  if code < 128 then
    0
  else
    match combiningClasses.find? fun entry => inRanges entry.2 code with
    | some entry => entry.1
    | none => 0

/--
Put a character in front of a text, behind the leading marks of a smaller
class.
-/
def insertMark (character : Char) : List Char → List Char
  | [] => [character]
  | next :: text =>
      if 0 < combiningClass next ∧
        combiningClass next < combiningClass character then
        next :: insertMark character text
      else
        character :: next :: text

/--
Put each run of combining marks in the order of their classes, equal ones as
they came.
-/
def orderMarks : List Char → List Char
  | [] => []
  | character :: text => insertMark character (orderMarks text)

/-- The canonical decomposition of a text. -/
def decomposed (text : List Char) : List Char :=
  orderMarks (text.flatMap decomposeCharacter)

/-- The ASCII characters of a text. -/
def asciiResidue (text : List Char) : List Char :=
  text.filter fun character => character.toNat < 128

end Flowgen.Text
