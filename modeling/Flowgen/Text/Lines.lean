import Flowgen.Text.Search

namespace Flowgen.Text

/-!
# Lines

A text read from a file has one kind of line end, whichever it was written with.
-/

/-- A text in which every line end is a line feed. -/
def unifiedLineEnds : List Char → List Char
  | [] => []
  | '\r' :: '\n' :: text => '\n' :: unifiedLineEnds text
  | '\r' :: text => '\n' :: unifiedLineEnds text
  | character :: text => character :: unifiedLineEnds text

/-- A text in which every line end is a line feed. -/
def unifyLineEnds (text : String) : String :=
  String.ofList (unifiedLineEnds text.toList)

/-- The lines of a text. -/
def lines (text : String) : List String :=
  split text "\n"

/-- The text with the given lines. -/
def ofLines (lines : List String) : String :=
  join "\n" lines

end Flowgen.Text
