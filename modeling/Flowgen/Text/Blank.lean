import Flowgen.Text.Search

namespace Flowgen.Text

/-!
# White space

Twenty-nine characters count as blank: the ASCII ones with the four information
separators, and the space separators and line breaks of Unicode.
-/

/-- Whether a character is white space. -/
def isBlank (character : Char) : Bool :=
  let code := character.toNat
  (9 ≤ code && code ≤ 13) || (28 ≤ code && code ≤ 32) || code == 0x85 ||
  code == 0xA0
    || code == 0x1680 || (0x2000 ≤ code && code ≤ 0x200A) || code == 0x2028 ||
    code == 0x2029
    || code == 0x202F || code == 0x205F || code == 0x3000

/-- A text without the characters of a class at its start. -/
def dropStart (isDropped : Char → Bool) (text : List Char) : List Char :=
  text.dropWhile isDropped

/-- A text without the characters of a class at its end. -/
def dropEnd (isDropped : Char → Bool) (text : List Char) : List Char :=
  (text.reverse.dropWhile isDropped).reverse

/-- A text without the white space around it. -/
def trimmed (text : List Char) : List Char :=
  dropEnd isBlank (dropStart isBlank text)

/-- The words of a text: its maximal runs of characters that are not blank. -/
def wordsOf (text : List Char) : List (List Char) :=
  runsOutside isBlank text

/-- A text without the white space around it. -/
def trim (text : String) : String :=
  String.ofList (trimmed text.toList)

/-- The words of a text. -/
def words (text : String) : List String :=
  (wordsOf text.toList).map String.ofList

end Flowgen.Text
