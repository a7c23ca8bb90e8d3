import Flowgen.Text.Blank
import Flowgen.Value.Access

namespace Flowgen.Naming

/-!
# File names

A workflow is saved under its own name, with an underscore for everything that a
file name should not have and for each run of white space.
-/

/-- The characters that a file name should not have. -/
def forbiddenCharacters : List Char :=
  ['<', '>', ':', '\x22', '/', '\\', '|', '?', '*']

/-- A text with an underscore for each forbidden character. -/
def forbiddenReplaced (text : List Char) : List Char :=
  forbiddenCharacters.foldl (fun text character =>
    Text.replaceAll [character] ['_'] text) text

/-- A text as a file name. -/
def safeName (text : List Char) : List Char :=
  let spaced := List.intercalate [' '] (Text.wordsOf (forbiddenReplaced text))
  Text.replaceAll [' '] ['_'] spaced

/-- The file name for a name that should be a text. -/
def fileName (name : Value) : Except Fault String :=
  (name.textFor .replace).map fun text => String.ofList (safeName text.toList)

end Flowgen.Naming
