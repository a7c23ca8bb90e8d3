import Flowgen.Files.Tree
import Flowgen.Markup.Encoding

namespace Flowgen.Markup

/-!
# Sources of documents

A document is read from the content of a file: its encoding is found and its
declaration is read.  What is left is the text of the document, with the number
of bytes that it came from.
-/

/-- What the declaration of a document says. -/
structure Declaration where
  encoding : Option (List Char)
  isStandalone : Bool
  deriving Repr

namespace Declaration

/-- Whether a character may stand in a value of the declaration. -/
def allowsInValue (character : Char) : Bool :=
  character.isAlphanum || character == '.' || character == '-' ||
    character == '_'

/-- A setting of the declaration with a given name, after some space. -/
def setting?
    (name : List Char)
    (text : List Char) :
    Option (List Char × List Char) := do
  let rest ← needSpace? text
  let rest ← Text.after? name rest
  let rest ← Text.after? ['='] (skipSpace rest)
  let (value, rest) ← quotedValue? (skipSpace rest)
  if value.all allowsInValue then
    return (value, rest)
  else
    none

/-- The declaration, after its keyword: it must be followed by its end. -/
def read? (text : List Char) : Option (Declaration × List Char) := do
  let (_, rest) ← setting? "version".toList text
  let encoding := setting? "encoding".toList rest
  let rest := (encoding.map Prod.snd).getD rest
  let standalone := setting? "standalone".toList rest
  let rest := (standalone.map Prod.snd).getD rest
  let rest ← Text.after? ['?', '>'] (skipSpace rest)
  let startsWithLetter :=
    fun (value : List Char) => value.head?.any Char.isAlpha
  let isFlag :=
    fun (value : List Char) => value == "yes".toList || value == "no".toList
  if (encoding.map Prod.fst).all startsWithLetter &&
    (standalone.map Prod.fst).all isFlag then
    return (⟨encoding.map Prod.fst,
      standalone.map Prod.fst == some "yes".toList⟩, rest)
  else
    none

/--
The declaration at the start of a text and what follows it; there may be none.
-/
def split? (text : List Char) : Option (Declaration × List Char) :=
  match Text.after? "<?xml".toList text with
  | some (character :: rest) =>
      if isSpace character then
        read? (character :: rest)
      else
        some (⟨none, false⟩, text)
  | _ => some (⟨none, false⟩, text)

/-- Whether a declaration leaves the usual encoding in force. -/
def isUsual (declaration : Declaration) : Bool :=
  declaration.encoding.all fun name => name.map Char.toLower == "utf-8".toList

end Declaration

/-- A result that is there, or the fault of malformed markup. -/
def require (result : Option α) : Except Fault α :=
  match result with
  | some value => .ok value
  | none => .error .malformedMarkup

/-- A document without its declaration. -/
structure Source where
  text : List Char
  encoding : Encoding
  isStandalone : Bool
  /-- How many bytes the document has in all. -/
  size : Nat
  deriving Repr

namespace Source

/-- How a document is read. -/
def manner (source : Source) : Manner :=
  source.encoding.manner

/-- How many bytes of a document stand before a rest of it. -/
def sizeBefore (source : Source) (rest : List Char) : Nat :=
  source.size - source.manner.size rest

/-- The document in bytes, by the encoding that they show or declare. -/
def ofBytes (bytes : List UInt8) : Except Fault Source := do
  let (detected, body) := Encoding.detect bytes
  let view := detected.view body
  let (declaration, rest) ← require (Declaration.split? view)
  let encoding ←
    match declaration.encoding with
    | some name => Encoding.declared detected name
    | none => .ok detected
  let declared := (view.length - rest.length) * detected.unit
  let text ← require (encoding.decode? (body.drop declared))
  return ⟨text, encoding, declaration.isStandalone, bytes.length⟩

/-- A text without a byte order mark. -/
def dropMark (text : List Char) : List Char :=
  match text with
  | '\uFEFF' :: rest => rest
  | _ => text

/--
The document in a text that can be taken as it is: it names no encoding but
the usual one.
-/
def ofText? (text : String) : Option Source :=
  if text.toList.contains '\x00' then
    none
  else
    match Declaration.split? (dropMark text.toList) with
    | some (declaration, rest) =>
        if declaration.isUsual then
          some ⟨rest, .utf8, declaration.isStandalone, text.utf8ByteSize⟩
        else
          none
    | none => none

/-- The document in the content of a file. -/
def ofContent (content : Content) : Except Fault Source :=
  match content with
  | .text text =>
      match ofText? text with
      | some source => .ok source
      | none => ofBytes content.toBytes
  | .bytes bytes => ofBytes bytes

end Source

end Flowgen.Markup
