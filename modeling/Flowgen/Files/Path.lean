import Flowgen.Value.Display
import Flowgen.Fault

namespace Flowgen

/-!
# Paths

A path is a root and the parts below it.  Empty parts and `.` are dropped when a
path is read, `..` is kept.  Joining an absolute path discards what stands
before it.
-/

/--
A path.  The root is empty for a path from the working directory, and otherwise
the text of an absolute directory up to its last slash.
-/
structure Path where
  root : String
  parts : List String
  deriving DecidableEq, Repr, Inhabited

namespace Path

/-- The root of a written path; two leading slashes are a root of their own. -/
def rootOf (text : List Char) : String :=
  match (text.takeWhile fun character => character == '/').length with
  | 0 => ""
  | 2 => "//"
  | _ => "/"

/-- The parts of a written path. -/
def partsOf (text : List Char) : List String :=
  ((Text.splitOn ['/'] text).map String.ofList).filter fun part =>
    part != "" && part != "."

/-- The path that a text writes. -/
def ofText (text : String) : Path where
  root := rootOf text.toList
  parts := partsOf text.toList

/-- A path inside an absolute directory. -/
def inside (directory : String) (parts : List String) : Path where
  root := directory ++ "/"
  parts := parts

/-- A path followed by a written one. -/
def join (path : Path) (text : String) : Path :=
  let next := ofText text
  if next.root = "" then
    { path with parts := path.parts ++ next.parts }
  else
    next

/-- The part of a path that a value gives, which must be a text. -/
def partOfValue : Value → Except Fault String
  | .text content => .ok content
  | other => .error (.noPathPart other.kind)

/-- The text of a path. -/
def text (path : Path) : String :=
  if path.parts.isEmpty then
    if path.root = "" then "." else path.root
  else
    path.root ++ Text.join "/" path.parts

/-- The directory that holds a path. -/
def parent (path : Path) : Path :=
  { path with parts := path.parts.dropLast }

/--
A file name without its last extension; a leading dot starts no extension.
-/
def stem (name : String) : String :=
  let reversed := name.toList.reverse
  let extension := reversed.takeWhile fun character => character != '.'
  let before := reversed.drop (extension.length + 1)
  if extension.isEmpty || before.isEmpty then
    name
  else
    String.ofList before.reverse

end Path

end Flowgen
