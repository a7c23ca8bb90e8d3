import Flowgen.Text.CaseTable
import Flowgen.Text.Letters

namespace Flowgen.Text

/-!
# Lower case and capitals

Full case mapping of a text.  The lower case of a capital sigma depends on its
surroundings: the final form stands after a cased character and before none,
where characters that casing looks through do not count.
-/

/-- The image of a code point under the first run that holds it. -/
def mapByRuns (runs : List CaseRun) (code : Nat) : Nat :=
  match runs.find? fun run =>
      run.first ≤ code && code ≤ run.last &&
        (code - run.first) % run.step == 0 with
  | some run => ((code : Int) + run.offset).toNat
  | none => code

/-- The image of a character under a table of expansions and one of runs. -/
def mapCase
    (expansions : List (Nat × List Nat))
    (runs : List CaseRun)
    (character : Char) :
    List Char :=
  match expansions.lookup character.toNat with
  | some codes => codes.map Char.ofNat
  | none => [Char.ofNat (mapByRuns runs character.toNat)]

/-- The lower case of one character by itself. -/
def lowerCharacter (character : Char) : List Char :=
  if character.toNat < 128 then
    [character.toLower]
  else
    mapCase lowerExpansions lowerRuns character

/-- The title case of one character. -/
def titleCharacter (character : Char) : List Char :=
  if character.toNat < 128 then
    [character.toUpper]
  else
    mapCase titleExpansions titleRuns character

/-- Whether casing looks through a character. -/
def isCaseIgnorable (character : Char) : Bool :=
  if character.toNat < 128 then
    character == '\x27' || character == '.' || character == ':' ||
      character == '^' || character == '\x60'
  else
    inRanges caseIgnorableRanges character.toNat

/-- Whether a character has case. -/
def isCased (character : Char) : Bool :=
  if character.toNat < 128 then
    character.isAlpha
  else
    inRanges casedRanges character.toNat

/-- Whether the nearest character that casing does not look through has case. -/
def nextIsCased (text : List Char) : Bool :=
  match text.dropWhile isCaseIgnorable with
  | [] => false
  | character :: _ => isCased character

/-- The lower case of a text; `before` holds what precedes it, nearest first. -/
def lowerAfter (before : List Char) : List Char → List Char
  | [] => []
  | character :: text =>
      let lowered :=
        if character = 'Σ' then
          [if nextIsCased before && !nextIsCased text then 'ς' else 'σ']
        else
          lowerCharacter character
      lowered ++ lowerAfter (character :: before) text

/-- The lower case of a text. -/
def lowered (text : List Char) : List Char :=
  lowerAfter [] text

/-- A word with its first character in title case and the rest in lower case. -/
def capitalized : List Char → List Char
  | [] => []
  | character :: text => titleCharacter character ++ lowerAfter [character] text

/-- The lower case of a text. -/
def lower (text : String) : String :=
  String.ofList (lowered text.toList)

/-- A word with its first character in title case and the rest in lower case. -/
def capitalize (text : String) : String :=
  String.ofList (capitalized text.toList)

end Flowgen.Text
