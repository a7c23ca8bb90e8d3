import Flowgen.Text.Letters
import Flowgen.Text.PrintableTable

namespace Flowgen.Text

/-!
# Quoted text

How a text is written between quotes inside a list, an object or a message.
Single quotes are used unless the text has single quotes and no double ones.
A backslash, the quote itself and everything unprintable are escaped.
-/

/-- Whether a character may stand unescaped between quotes. -/
def isPrintable (character : Char) : Bool :=
  let code := character.toNat
  if code < 128 then
    32 ≤ code && code < 127
  else
    !inRanges unprintableRanges code

/-- A number in hexadecimal, padded with zeros to a width. -/
def hexadecimal (width number : Nat) : List Char :=
  let digits := Nat.toDigits 16 number
  List.replicate (width - digits.length) '0' ++ digits

/-- One character between the given quotes. -/
def quoteCharacter (quote character : Char) : List Char :=
  if character = quote ∨ character = '\\' then ['\\', character]
  else if character = '\n' then ['\\', 'n']
  else if character = '\r' then ['\\', 'r']
  else if character = '\t' then ['\\', 't']
  else if isPrintable character then [character]
  else if character.toNat < 0x100 then '\\' :: 'x' ::
    hexadecimal 2 character.toNat
  else if character.toNat < 0x10000 then '\\' :: 'u' ::
    hexadecimal 4 character.toNat
  else '\\' :: 'U' :: hexadecimal 8 character.toNat

/-- The quote that a text is written in. -/
def quoteFor (text : List Char) : Char :=
  if text.contains '\x27' && !text.contains '\x22' then '\x22' else '\x27'

/-- A text between quotes. -/
def quoted (text : List Char) : List Char :=
  let quote := quoteFor text
  quote :: text.flatMap (quoteCharacter quote) ++ [quote]

/-- A text between quotes. -/
def quote (text : String) : String :=
  String.ofList (quoted text.toList)

end Flowgen.Text
