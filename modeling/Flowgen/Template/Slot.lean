import Flowgen.Text.Search

namespace Flowgen.Template

/-!
# Placeholders

A template marks the places to fill by names in double braces.  Placeholders are
filled one after the other, each everywhere at once.
-/

/-- A placeholder by name, with the text to put there. -/
structure Slot where
  name : String
  content : String
  deriving DecidableEq, Repr

/-- How a placeholder is written. -/
def placeholder (name : String) : String :=
  "\x7b\x7b" ++ name ++ "\x7d\x7d"

/-- A text with one placeholder filled. -/
def fillSlot (text : String) (slot : Slot) : String :=
  Text.replace text (placeholder slot.name) slot.content

/-- A text with placeholders filled in order. -/
def fill (text : String) (slots : List Slot) : String :=
  slots.foldl fillSlot text

end Flowgen.Template
