import Flowgen.Text.Utf8
import Flowgen.Value.Basic

namespace Flowgen

/-!
# Faults

Everything that can end an operation early, by cause.  `Fault.message` is the
one place where faults get their words.
-/

/-- Why a file operation fails. -/
inductive FileCause where
  | notFound
  | denied
  | taken
  | notDirectory
  | isDirectory
  | nameTooLong
  deriving DecidableEq, Repr

namespace FileCause

/-- The number of a cause. -/
def number : FileCause → Nat
  | .notFound => 2
  | .denied => 13
  | .taken => 17
  | .notDirectory => 20
  | .isDirectory => 21
  | .nameTooLong => 36

/-- The words for a cause. -/
def words : FileCause → String
  | .notFound => "No such file or directory"
  | .denied => "Permission denied"
  | .taken => "File exists"
  | .notDirectory => "Not a directory"
  | .isDirectory => "Is a directory"
  | .nameTooLong => "File name too long"

end FileCause

/-- Why a device fails to take what is written to an open file. -/
inductive DeviceCause where
  | ioError
  | fileTooLarge
  | noSpace
  | quotaExceeded
  deriving DecidableEq, Repr

namespace DeviceCause

/-- The number of a cause. -/
def number : DeviceCause → Nat
  | .ioError => 5
  | .fileTooLarge => 27
  | .noSpace => 28
  | .quotaExceeded => 122

/-- The words for a cause. -/
def words : DeviceCause → String
  | .ioError => "Input/output error"
  | .fileTooLarge => "File too large"
  | .noSpace => "No space left on device"
  | .quotaExceeded => "Disk quota exceeded"

end DeviceCause

/-- What an operation on a value needs it to offer. -/
inductive Operation where
  | get
  | items
  | values
  | lower
  | strip
  | rstrip
  | split
  | replace
  | startsWith
  | endsWith
  | isAlphanumeric
  deriving DecidableEq, Repr

/-- The name of an operation in messages. -/
def Operation.name : Operation → String
  | .get => "get"
  | .items => "items"
  | .values => "values"
  | .lower => "lower"
  | .strip => "strip"
  | .rstrip => "rstrip"
  | .split => "split"
  | .replace => "replace"
  | .startsWith => "startswith"
  | .endsWith => "endswith"
  | .isAlphanumeric => "isalnum"

/-- The places where only text will do. -/
inductive TextArgument where
  | replacement
  | decomposition
  | writing
  deriving DecidableEq, Repr

/-- The name of such a place in messages. -/
def TextArgument.name : TextArgument → String
  | .replacement => "replace() argument 2"
  | .decomposition => "normalize() argument 2"
  | .writing => "write() argument"

/-- How a request to the server failed. -/
inductive RequestCause where
  /-- The transport failed; the name of its fault comes with it. -/
  | transport (name : String)
  /-- The server answered with an error status. -/
  | status
  /-- The answer is no JSON. -/
  | malformed
  deriving DecidableEq, Repr

/-- The causes that end an operation early. -/
inductive Fault where
  /-- The value does not offer the operation. -/
  | noOperation (kind : Kind) (operation : Operation)
  /-- The value has no elements to go through. -/
  | notIterable (kind : Kind)
  /-- The value has no length. -/
  | noLength (kind : Kind)
  /-- The value cannot be a key. -/
  | unhashable (kind : Kind)
  /-- A text is needed and the value is none. -/
  | needsText (argument : TextArgument) (kind : Kind)
  /-- The value cannot be a part of a path. -/
  | noPathPart (kind : Kind)
  /-- The text spells no real number. -/
  | badReal (text : String)
  /-- The text spells no integer. -/
  | badInteger (text : String)
  /-- The text spells an integer of too many digits. -/
  | tooManyDigits (count : Nat)
  /-- The value is no real number. -/
  | notReal (kind : Kind)
  /-- The value is no integer. -/
  | notInteger (kind : Kind)
  /-- The integer exceeds every double. -/
  | tooLarge
  /-- Infinity has no integer part. -/
  | infinite
  /-- That which is no number has no integer part. -/
  | notANumber
  /-- A file operation on a path failed. -/
  | file (cause : FileCause) (path : String)
  /-- A path has a null character. -/
  | nullCharacter
  /-- A device failed while a file was written. -/
  | device (cause : DeviceCause)
  /-- A device failed while a file was copied. -/
  | copying (cause : DeviceCause) (source target : String)
  /-- A text cannot be written as bytes. -/
  | unencodable (text : Text.Ragged)
  /-- The bytes of a file are no text. -/
  | undecodable (fault : Text.Utf8Fault)
  /-- The name of an encoding is not known. -/
  | unknownEncoding (name : String)
  /-- An encoding has several bytes a character. -/
  | wideEncoding
  /-- An encoding does not give text. -/
  | noTextEncoding (name : String)
  /-- An encoding refuses to stand in for faulty bytes. -/
  | refusedEncoding (name reason : String)
  /-- An encoding refuses every byte from 128 on. -/
  | asciiOnlyEncoding
  /-- A document is not well-formed markup. -/
  | malformedMarkup
  /-- A document is no JSON. -/
  | malformedJson
  /-- An expression names a source in a way that no access can be made for. -/
  | unsupportedSource
  /-- The general credential has no key of its own. -/
  | abstractCredential
  /-- The general credential takes no key. -/
  | unexpectedKey
  /-- A request failed. -/
  | request (cause : RequestCause) (text : String)
  /-- The user interrupted the program. -/
  | interrupted (text : String)
  /-- The input ended. -/
  | inputEnded (text : String)
  /-- No scripted answer is left. -/
  | answersExhausted
  deriving DecidableEq, Repr

namespace Fault

/-- The name of a kind where a missing value is called by its own name. -/
def argumentName : Kind → String
  | .null => "None"
  | kind => kind.name

/-- The words for a fault. -/
def message : Fault → String
  | .noOperation kind operation =>
      "'" ++ kind.name ++ "' object has no attribute '" ++ operation.name ++ "'"
  | .notIterable kind => "'" ++ kind.name ++ "' object is not iterable"
  | .noLength kind => "object of type '" ++ kind.name ++ "' has no len()"
  | .unhashable kind => "unhashable type: '" ++ kind.name ++ "'"
  | .needsText argument kind =>
      argument.name ++ " must be str, not " ++ argumentName kind
  | .noPathPart kind =>
      "unsupported operand type(s) for /: 'PosixPath' and '" ++ kind.name ++ "'"
  | .badReal text => "could not convert string to float: " ++ Text.quote text
  | .badInteger text =>
      "invalid literal for int() with base 10: "
        ++ String.ofList ((Text.quote text).toList.take 200)
  | .tooManyDigits count =>
      "Exceeds the limit (4300 digits) for integer string conversion: "
        ++ "value has " ++ toString count
        ++ " digits; use sys.set_int_max_str_digits() to increase the limit"
  | .notReal kind =>
      "float() argument must be a string or a real number, not '"
        ++ kind.name ++ "'"
  | .notInteger kind =>
      "int() argument must be a string, a bytes-like object "
        ++ "or a real number, not '" ++ kind.name ++ "'"
  | .tooLarge => "int too large to convert to float"
  | .infinite => "cannot convert float infinity to integer"
  | .notANumber => "cannot convert float NaN to integer"
  | .file cause path =>
      "[Errno " ++ toString cause.number ++ "] " ++ cause.words ++ ": "
        ++ Text.quote path
  | .nullCharacter => "embedded null byte"
  | .device cause => "[Errno " ++ toString cause.number ++ "] " ++ cause.words
  | .copying cause source target =>
      "[Errno " ++ toString cause.number ++ "] " ++ cause.words ++ ": "
        ++ Text.quote source ++ " -> " ++ Text.quote target
  | .unencodable text => text.message
  | .undecodable fault => fault.message
  | .unknownEncoding name => "unknown encoding: " ++ name
  | .wideEncoding => "multi-byte encodings are not supported"
  | .noTextEncoding name =>
      "'" ++ name ++ "' is not a text encoding; "
        ++ "use codecs.decode() to handle arbitrary codecs"
  | .refusedEncoding name reason =>
      "decoding with '" ++ name ++ "' codec failed (UnicodeError: "
        ++ reason ++ ")"
  | .asciiOnlyEncoding =>
      "'ascii' codec can't decode byte 0x80 in position 82: "
        ++ "ordinal not in range(128)"
  | .malformedMarkup => "<xml error>"
  | .malformedJson => "<json error>"
  | .unsupportedSource =>
      "'ExpressionParser' object has no attribute '_build_php_access'"
  | .abstractCredential =>
      "Can't instantiate abstract class Credentials "
        ++ "with abstract method get_api_key"
  | .unexpectedKey => "Credentials() takes no arguments"
  | .request _ text => text
  | .interrupted text => text
  | .inputEnded text => text
  | .answersExhausted => "no more answers"

/-- Whether a handler for ordinary faults lets this one pass. -/
def isUncatchable : Fault → Bool
  | .interrupted _ => true
  | .answersExhausted => true
  | _ => false

/-- Whether a fault is a failed request. -/
def isRequest : Fault → Bool
  | .request .. => true
  | _ => false

end Fault

end Flowgen
