import Flowgen.Text.Search

namespace Flowgen.Text

/-!
# Tables of code points

A table of code points is kept as lines of hexadecimal ranges, both ends
included: `C0-D6` is a range, and `AA` a code point by itself.  Of the end of a
range only the digits in which it differs are written: `2C6-D1` ends at `2D1`.
-/

/-- The number that hexadecimal digits write, capitals being above nine. -/
def hexadecimalNumber (digits : List Char) : Nat :=
  digits.foldl
    (fun number digit =>
      16 * number + (digit.toNat - if digit.isDigit then 48 else 55)) 0

/-- The words in lines of a table. -/
def wordsIn (lines : List String) : List (List Char) :=
  lines.flatMap fun line => splitWhere (· == ' ') line.toList

/-- The ranges in lines of a table. -/
def rangesIn (lines : List String) : List (Nat × Nat) :=
  (wordsIn lines).map fun word =>
    let ends := splitWhere (· == '-') word
    let first := ends.headD []
    let last := ends.getLastD []
    let kept := first.take (first.length - last.length)
    (hexadecimalNumber first, hexadecimalNumber (kept ++ last))

/-- Whether a code point lies in one of several ranges. -/
def inRanges (ranges : List (Nat × Nat)) (code : Nat) : Bool :=
  ranges.any fun range => range.1 ≤ code && code ≤ range.2

end Flowgen.Text
