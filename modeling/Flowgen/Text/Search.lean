namespace Flowgen.Text

/-!
# Finding, replacing and splitting

Plain text operations on lists of characters, each by recursion on the text.
An occurrence of a pattern is taken leftmost first, and the next one is sought
after its end; the counter `skip` passes over the rest of an occurrence.
The versions on `String` at the end only wrap the ones on lists.
-/

/--
What follows a pattern at the start of a text, if the text starts with it.
-/
def after? : List Char → List Char → Option (List Char)
  | [], text => some text
  | _ :: _, [] => none
  | expected :: pattern, character :: text =>
      if expected = character then after? pattern text else none

/-- Whether a pattern occurs somewhere in a text. -/
def occurs (pattern : List Char) : List Char → Bool
  | [] => pattern.isEmpty
  | character :: text =>
      pattern.isPrefixOf (character :: text) || occurs pattern text

/-- Replace the occurrences of a pattern after `skip` characters. -/
def replaceAfter (pattern replacement : List Char) : Nat → List Char → List Char
  | _, [] => []
  | skip + 1, _ :: text => replaceAfter pattern replacement skip text
  | 0, character :: text =>
      if pattern.isPrefixOf (character :: text) then
        replacement ++ replaceAfter pattern replacement (pattern.length - 1)
          text
      else
        character :: replaceAfter pattern replacement 0 text

/-- Replace every occurrence of a non-empty pattern. -/
def replaceAll (pattern replacement text : List Char) : List Char :=
  replaceAfter pattern replacement 0 text

/-- Put a character at the front of the first piece. -/
def extendFirst (character : Char) : List (List Char) → List (List Char)
  | [] => [[character]]
  | piece :: pieces => (character :: piece) :: pieces

/--
The pieces between the occurrences of a separator after `skip` characters.
-/
def splitAfter (separator : List Char) : Nat → List Char → List (List Char)
  | _, [] => [[]]
  | skip + 1, _ :: text => splitAfter separator skip text
  | 0, character :: text =>
      if separator.isPrefixOf (character :: text) then
        [] :: splitAfter separator (separator.length - 1) text
      else
        extendFirst character (splitAfter separator 0 text)

/-- The pieces of a text between the occurrences of a non-empty separator. -/
def splitOn (separator text : List Char) : List (List Char) :=
  splitAfter separator 0 text

/-- The pieces of a text between the characters of a class. -/
def splitWhere (isSeparator : Char → Bool) : List Char → List (List Char)
  | [] => [[]]
  | character :: text =>
      if isSeparator character then
        [] :: splitWhere isSeparator text
      else
        extendFirst character (splitWhere isSeparator text)

/-- The maximal runs of characters outside a class, in order. -/
def runsOutside
    (isSeparator : Char → Bool)
    (text : List Char) :
    List (List Char) :=
  (splitWhere isSeparator text).filter fun run => !run.isEmpty

/-- Whether a pattern occurs in a text. -/
def contains (text pattern : String) : Bool :=
  occurs pattern.toList text.toList

/-- Whether a text starts with a pattern. -/
def startsWith (text pattern : String) : Bool :=
  pattern.toList.isPrefixOf text.toList

/-- Whether a text ends with a pattern. -/
def endsWith (text pattern : String) : Bool :=
  pattern.toList.isSuffixOf text.toList

/-- A text with every occurrence of a non-empty pattern replaced. -/
def replace (text pattern replacement : String) : String :=
  String.ofList (replaceAll pattern.toList replacement.toList text.toList)

/-- The pieces of a text between the occurrences of a non-empty separator. -/
def split (text separator : String) : List String :=
  (splitOn separator.toList text.toList).map String.ofList

/-- Texts with a separator between each two. -/
def join (separator : String) (texts : List String) : String :=
  String.ofList (List.intercalate separator.toList (texts.map String.toList))

end Flowgen.Text
