import Flowgen.Text.Quoted

namespace Flowgen.Text

/-!
# UTF-8

Bytes are read as text one character at a time.  The first byte that cannot go
on is reported with its position and with how many bytes belong to the fault.
A text in which half of a surrogate pair stands alone has no bytes.
-/

/-- Why bytes are no text. -/
inductive Utf8Cause where
  | badStart
  | badContinuation
  | cutShort
  deriving DecidableEq, Repr

/--
A fault in bytes that should be text: where it starts and how many bytes it
takes.
-/
structure Utf8Fault where
  cause : Utf8Cause
  byte : UInt8
  position : Nat
  count : Nat
  deriving DecidableEq, Repr

namespace Utf8Fault

/-- The words for a cause. -/
def causeText : Utf8Cause → String
  | .badStart => "invalid start byte"
  | .badContinuation => "invalid continuation byte"
  | .cutShort => "unexpected end of data"

/-- The message for a fault. -/
def message (fault : Utf8Fault) : String :=
  let place :=
    if fault.count = 1 then
      "byte 0x" ++ String.ofList (hexadecimal 2 fault.byte.toNat)
        ++ " in position " ++ toString fault.position
    else
      "bytes in position " ++ toString fault.position
        ++ "-" ++ toString (fault.position + fault.count - 1)
  "'utf-8' codec can't decode " ++ place ++ ": " ++ causeText fault.cause

end Utf8Fault

/-- Whether a byte continues a character. -/
def isTail (byte : UInt8) : Bool :=
  0x80 ≤ byte && byte < 0xC0

/-- Whether the second byte of a character fits its first one. -/
def fitsLead (lead second : UInt8) : Bool :=
  isTail second
    && !(lead == 0xE0 && second < 0xA0) && !(lead == 0xED && 0xA0 ≤ second)
    && !(lead == 0xF0 && second < 0x90) && !(lead == 0xF4 && 0x90 ≤ second)

/-- The low six bits of a byte that continues a character. -/
def tailBits (byte : UInt8) : Nat :=
  byte.toNat % 64

/-- Read bytes as text; `position` counts the bytes before them. -/
def decodeFrom (position : Nat) : List UInt8 → Except Utf8Fault (List Char)
  | [] => .ok []
  | lead :: rest =>
      let refuse (cause : Utf8Cause) (count : Nat) :
        Except Utf8Fault (List Char) :=
        .error ⟨cause, lead, position, count⟩
      if lead < 0x80 then
        (decodeFrom (position + 1) rest).map (Char.ofNat lead.toNat :: ·)
      else if lead < 0xC2 || 0xF5 ≤ lead then
        refuse .badStart 1
      else
        match rest with
        | [] => refuse .cutShort 1
        | second :: rest =>
            if !fitsLead lead second then
              refuse .badContinuation 1
            else if lead < 0xE0 then
              (decodeFrom (position + 2) rest).map
                (Char.ofNat (lead.toNat % 32 * 64 + tailBits second) :: ·)
            else
              match rest with
              | [] => refuse .cutShort 2
              | third :: rest =>
                  if !isTail third then
                    refuse .badContinuation 2
                  else if lead < 0xF0 then
                    (decodeFrom (position + 3) rest).map
                      (Char.ofNat
                        ((lead.toNat % 16 * 64 + tailBits second) * 64 +
                          tailBits third) :: ·)
                  else
                    match rest with
                    | [] => refuse .cutShort 3
                    | fourth :: rest =>
                        if !isTail fourth then
                          refuse .badContinuation 3
                        else
                          (decodeFrom (position + 4) rest).map
                            (Char.ofNat
                              (((lead.toNat % 8 * 64 + tailBits second) * 64 +
                                tailBits third) * 64 + tailBits fourth) :: ·)

/-- Read bytes as text. -/
def decode (bytes : List UInt8) : Except Utf8Fault String :=
  (decodeFrom 0 bytes).map String.ofList

/-- The bytes of a text. -/
def encode (text : String) : List UInt8 :=
  text.toUTF8.toList

/--
A point of a text: a character, or half of a pair by its number among the
halves.
-/
inductive Point where
  | character (character : Char)
  | half (number : Fin 2048)
  deriving DecidableEq, Repr

/-- Whether a point is half of a pair. -/
def Point.isHalf : Point → Bool
  | .character _ => false
  | .half _ => true

/--
A text in which halves of pairs stand alone: the characters before the first of
them, that half, and the points behind it.
-/
structure Ragged where
  before : String
  half : Fin 2048
  after : List Point
  deriving DecidableEq, Repr

/-- Why a ragged text has no bytes. -/
def Ragged.message (text : Ragged) : String :=
  let position := text.before.length
  let others := (text.after.takeWhile Point.isHalf).length
  let place :=
    if others = 0 then
      "character '\\u" ++ String.ofList (hexadecimal 4 (0xD800 + text.half.val))
        ++ "' in position " ++ toString position
    else
      "characters in position " ++ toString position
        ++ "-" ++ toString (position + others)
  "'utf-8' codec can't encode " ++ place ++ ": surrogates not allowed"

end Flowgen.Text
