import Flowgen.Fault
import Flowgen.Markup.Charset
import Flowgen.Markup.Scan

namespace Flowgen.Markup

/-!
# Encodings of documents

How the bytes of a document become characters.  The first bytes show whether
there are one or two bytes a unit; a declaration may then name the encoding.
-/

/-- A way in which bytes can be characters. -/
inductive Encoding where
  | utf8
  | utf16 (bigEndian : Bool)
  | latin1
  | ascii
  /--
  As in ASCII but for some bytes that stand for nothing, then by a row of
  characters.
  -/
  | row (missing : List Nat) (letters : String)
  deriving DecidableEq, Repr

namespace Encoding

/-- Code units of two bytes each; a byte that is left over is dropped. -/
def pairs (bigEndian : Bool) : List UInt8 → List Nat
  | first :: second :: bytes =>
      let unit :=
        if bigEndian then first.toNat * 256 + second.toNat
          else second.toNat * 256 + first.toNat
      unit :: pairs bigEndian bytes
  | _ => []

/--
The characters of code units.  The first half of a pair takes the next unit as
its other half, whatever it is; a second half cannot stand alone.
-/
def ofUnits : List Nat → Option (List Char)
  | [] => some []
  | unit :: units =>
      if 0xD800 ≤ unit ∧ unit < 0xDC00 then
        match units with
        | second :: units =>
            (ofUnits units).map
              (Char.ofNat
                (0x10000 + (unit - 0xD800) * 0x400 + second % 0x400) :: ·)
        | [] => none
      else if 0xDC00 ≤ unit ∧ unit < 0xE000 then
        none
      else
        (ofUnits units).map (Char.ofNat unit :: ·)

/-- The character that a byte stands for in a row encoding. -/
def rowCharacter?
    (missing : List Nat)
    (letters : Array Char)
    (byte : UInt8) :
    Option Char :=
  if byte < 128 then
    if missing.contains byte.toNat then none else some (Char.ofNat byte.toNat)
  else
    match letters[byte.toNat - 128]? with
    | some character => if character = '\uFFFD' then none else some character
    | none => none

/-- The characters of bytes. -/
def decode? (encoding : Encoding) (bytes : List UInt8) : Option (List Char) :=
  match encoding with
  | .utf8 => (Text.decodeFrom 0 bytes).toOption
  | .utf16 bigEndian =>
      if bytes.length % 2 = 0 then ofUnits (pairs bigEndian bytes) else none
  | .latin1 => some (bytes.map fun byte => Char.ofNat byte.toNat)
  | .ascii => bytes.mapM (rowCharacter? [] #[])
  | .row missing letters =>
      bytes.mapM (rowCharacter? missing letters.toList.toArray)

/-- How many bytes a character takes. -/
def width (encoding : Encoding) (character : Char) : Nat :=
  match encoding with
  | .utf8 => character.utf8Size
  | .utf16 _ => if character.toNat < 0x10000 then 2 else 4
  | _ => 1

/-- The letters of names in an encoding. -/
def alphabet : Encoding → Alphabet
  | .utf16 _ => .extended
  | .latin1 => .extended
  | _ => .standard

/-- How a document in an encoding is read. -/
def manner (encoding : Encoding) : Manner where
  alphabet := encoding.alphabet
  width := encoding.width
  isInner := false

/-- Whether an encoding has units of two bytes. -/
def isWide : Encoding → Bool
  | .utf16 _ => true
  | _ => false

/-- How many bytes a unit has. -/
def unit (encoding : Encoding) : Nat :=
  if encoding.isWide then 2 else 1

/--
The encoding that the first bytes show, and the bytes after a byte order mark.
-/
def detect : List UInt8 → Encoding × List UInt8
  | 0xFE :: 0xFF :: bytes => (.utf16 true, bytes)
  | 0xFF :: 0xFE :: bytes => (.utf16 false, bytes)
  | 0xEF :: 0xBB :: 0xBF :: bytes => (.utf8, bytes)
  | 0x00 :: second :: bytes => (.utf16 true, 0x00 :: second :: bytes)
  | first :: 0x00 :: bytes => (.utf16 false, first :: 0x00 :: bytes)
  | bytes => (.utf8, bytes)

/-- One character for each unit, right for those of ASCII. -/
def view (encoding : Encoding) (bytes : List UInt8) : List Char :=
  match encoding with
  | .utf16 bigEndian => (pairs bigEndian bytes).map Char.ofNat
  | _ => bytes.map fun byte => Char.ofNat byte.toNat

/-- The encodings that every document knows, by name. -/
def known : List (String × Encoding) :=
  [("utf-8", .utf8), ("iso-8859-1", .latin1), ("us-ascii", .ascii),
   ("utf-16be", .utf16 true), ("utf-16le", .utf16 false)]

/-- The encoding with a name that not every document knows. -/
def ofCharset (name : String) : Option Charset → Except Fault Encoding
  | some (.letters missing letters) => .ok (.row missing letters)
  | some .unsuitable => .error .malformedMarkup
  | some .multiple => .error .wideEncoding
  | some .noText => .error (.noTextEncoding name)
  | some (.refused reason) => .error (.refusedEncoding name reason)
  | some .asciiOnly => .error .asciiOnlyEncoding
  | none => .error (.unknownEncoding name)

/-- The encoding in force when one was detected and a name is declared. -/
def declared (detected : Encoding) (name : List Char) : Except Fault Encoding :=
  let lowered := String.ofList (name.map Char.toLower)
  if lowered = "utf-16" then
    if detected.isWide then .ok detected else .error .malformedMarkup
  else
    match known.lookup lowered with
    | some encoding =>
        if encoding.isWide = detected.isWide ∧
          (encoding.isWide → encoding = detected) then
          .ok encoding
        else
          .error .malformedMarkup
    | none => ofCharset (String.ofList name) (Charset.find? name)

end Encoding

end Flowgen.Markup
