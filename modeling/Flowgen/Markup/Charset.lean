import Flowgen.Markup.CharsetTable

namespace Flowgen.Markup.Charset

/-!
# Finding named encodings

The name of an encoding may be written in any case and with any signs between
its words, and most encodings have several names.
-/

/-- Whether a character in the name of an encoding only divides its words. -/
def isSign (character : Char) : Bool :=
  !character.isAlphanum && character != '.'

/-- A name in lower case with one underscore between its words. -/
def plainName (name : List Char) : String :=
  let words := Text.runsOutside isSign (name.map Char.toLower)
  Text.join "_" (words.map String.ofList)

/--
The main name of an encoding; a dot in another name may stand for an
underscore.
-/
def mainName? (plain : String) : Option String :=
  match charsetAliases.lookup plain with
  | some main => some main
  | none => charsetAliases.lookup (Text.replace plain "." "_")

/-- The encoding with a name. -/
def find? (name : List Char) : Option Charset :=
  let plain := plainName name
  match (mainName? plain).bind fun main => charsets.lookup main with
  | some charset => some charset
  | none => charsets.lookup plain

end Flowgen.Markup.Charset
