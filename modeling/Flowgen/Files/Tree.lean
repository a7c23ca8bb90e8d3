import Flowgen.Files.Path

namespace Flowgen

/-!
# The file tree

The directory the program works in, as a finite table from names to entries,
and the file system around it.  A place is the list of names that lead to it
from the root of the file system.  Paths are followed name by name, and every
name but the last must lead to a directory.
-/

/-- What a file holds: a text, or bytes that are no text. -/
inductive Content where
  | text (content : String)
  | bytes (content : List UInt8)
  deriving DecidableEq, Repr, Inhabited

namespace Content

/-- The content with the given bytes. -/
def ofBytes (bytes : List UInt8) : Content :=
  match Text.decode bytes with
  | .ok content => .text content
  | .error _ => .bytes bytes

/-- The bytes of a content. -/
def toBytes : Content → List UInt8
  | .text content => Text.encode content
  | .bytes content => content

/-- The text of a content. -/
def toText : Content → Except Fault String
  | .text content => .ok content
  | .bytes content => (Text.decode content).mapError .undecodable

end Content

/-- An entry of a file tree. -/
inductive Entry where
  | directory
  | file (content : Content)
  deriving DecidableEq, Repr

/-- How a device fails while a file is written: how many bytes arrive before. -/
structure Setback where
  arrived : Nat
  cause : DeviceCause
  deriving DecidableEq, Repr

/-- Where a path leads: the names from the root of the file system. -/
abbrev Place :=
  List String

/-- A directory with all that is in it, and the file system around it. -/
structure FileTree where
  /-- The absolute path of the top directory. -/
  home : String
  /-- The entries below the top; the top itself is not listed. -/
  entries : List (List String × Entry)
  /-- The places below the top that refuse to be written. -/
  locked : List (List String)
  /-- The places where the device fails when they are written. -/
  failing : List (Place × Setback)
  /--
  The entries elsewhere; the directories that lead to the top are not listed.
  -/
  elsewhere : List (Place × Entry)
  /-- The places elsewhere that can be written. -/
  writable : List Place
  deriving DecidableEq, Repr, Inhabited

namespace FileTree

/-- An empty directory, with nothing around it. -/
def empty (home : String) : FileTree where
  home := home
  entries := []
  locked := []
  failing := []
  elsewhere := []
  writable := []

/-- The entry with these names below the top. -/
def entry? (tree : FileTree) (names : List String) : Option Entry :=
  if names.isEmpty then
    some .directory
  else
    tree.entries.lookup names

/-- Set the entry in a table, in place of the one it has for these names. -/
def setIn (names : List String) (entry : Entry) :
    List (List String × Entry) → List (List String × Entry)
  | [] => [(names, entry)]
  | other :: entries =>
      if other.1 = names then
        (names, entry) :: entries
      else
        other :: setIn names entry entries

/-- The tree with an entry set below the top. -/
def set (tree : FileTree) (names : List String) (entry : Entry) : FileTree :=
  { tree with entries := setIn names entry tree.entries }

/--
The tree with a directory at each step along these names, from a place on.
-/
def withDirectoriesFrom (tree : FileTree) (place : List String) :
    List String → FileTree
  | [] => tree
  | name :: names =>
      let next := place ++ [name]
      let extended :=
        if (tree.entry? next).isSome then tree else tree.set next .directory
      withDirectoriesFrom extended next names

/-- The tree with a directory at these names, and one above each of them. -/
def withDirectories (tree : FileTree) (names : List String) : FileTree :=
  tree.withDirectoriesFrom [] names

/-- The tree with a file, and with the directories above it. -/
def withFile
    (tree : FileTree)
    (names : List String)
    (content : Content) :
    FileTree :=
  (tree.withDirectories names.dropLast).set names (.file content)

/-- The place of the top directory. -/
def top (tree : FileTree) : Place :=
  Path.partsOf tree.home.toList

/-- The place with these names below the top. -/
def below (tree : FileTree) (names : List String) : Place :=
  tree.top ++ names

/-- The names that lead from the top to a place, if it is not elsewhere. -/
def namesTo? (tree : FileTree) (place : Place) : Option (List String) :=
  tree.top.isPrefixOf? place

/-- The entry at a place that does not lie below the top. -/
def outer? (tree : FileTree) (place : Place) : Option Entry :=
  if place.isPrefixOf tree.top then
    some .directory
  else
    tree.elsewhere.lookup place

/-- The entry at a place. -/
def entryAt? (tree : FileTree) (place : Place) : Option Entry :=
  match tree.namesTo? place with
  | some names => tree.entry? names
  | none => tree.outer? place

/-- The tree with an entry set at a place. -/
def setAt (tree : FileTree) (place : Place) (entry : Entry) : FileTree :=
  match tree.namesTo? place with
  | some names => tree.set names entry
  | none => { tree with elsewhere := setIn place entry tree.elsewhere }

/-- The place that a name leads to from a place; nothing lies above the root. -/
def child (place : Place) (name : String) : Place :=
  if name = ".." then
    place.dropLast
  else
    place ++ [name]

/-- Nothing if a place is a directory, and else why not. -/
def directoryFault? (tree : FileTree) (place : Place) : Option FileCause :=
  match tree.entryAt? place with
  | some .directory => none
  | some (.file _) => some .notDirectory
  | none => some .notFound

/-- The greatest number of bytes in a name. -/
def nameLimit : Nat :=
  255

/-- The greatest number of bytes in a path. -/
def pathLimit : Nat :=
  4095

/-- Follow names from a place. -/
def follow (tree : FileTree) : Place → List String → Except FileCause Place
  | place, [] => .ok place
  | place, name :: names =>
      match tree.directoryFault? place with
      | some cause => .error cause
      | none =>
          if nameLimit < name.utf8ByteSize then
            .error .nameTooLong
          else
            follow tree (child place name) names

/-- Where a root stands; paths without a root start at the top. -/
def rootPlace (tree : FileTree) (root : String) : Place :=
  if root = "" then tree.top else Path.partsOf root.toList

/-- Where a path leads. -/
def locate (tree : FileTree) (path : Path) : Except Fault Place :=
  if path.parts.any fun part => part.toList.contains '\x00' then
    .error .nullCharacter
  else if pathLimit < path.text.utf8ByteSize then
    .error (.file .nameTooLong path.text)
  else
    (tree.follow (tree.rootPlace path.root) path.parts).mapError fun cause =>
      .file cause path.text

/-- The entry that a path leads to. -/
def find (tree : FileTree) (path : Path) : Except Fault Entry := do
  match tree.entryAt? (← tree.locate path) with
  | some entry => .ok entry
  | none => .error (.file .notFound path.text)

/-- Whether a fault says that nothing is there. -/
def saysMissing : Fault → Bool
  | .file .notFound _ => true
  | .file .notDirectory _ => true
  | .nullCharacter => true
  | _ => false

/-- Whether a path leads to something. -/
def has (tree : FileTree) (path : Path) : Except Fault Bool :=
  match tree.find path with
  | .ok _ => .ok true
  | .error fault => if saysMissing fault then .ok false else .error fault

/-- The content of the file at a path. -/
def read (tree : FileTree) (path : Path) : Except Fault Content := do
  match ← tree.find path with
  | .file content => .ok content
  | .directory => .error (.file .isDirectory path.text)

/-- How the device fails when a place is written, if it does. -/
def setback? (tree : FileTree) (place : Place) : Option Setback :=
  tree.failing.lookup place

/-- What of a content arrives at a place. -/
def arriving (tree : FileTree) (place : Place) (content : Content) : Content :=
  match tree.setback? place with
  | some setback => .ofBytes (content.toBytes.take setback.arrived)
  | none => content

/-- Whether a place refuses to be written. -/
def refuses (tree : FileTree) (place : Place) : Bool :=
  match tree.namesTo? place with
  | some names => tree.locked.contains names
  | none => !tree.writable.contains place

/--
The tree after a file was opened, which empties it, and written: it holds what
has arrived.
-/
def write
    (tree : FileTree)
    (path : Path)
    (content : Content) :
    Except Fault FileTree := do
  let place ← tree.locate path
  if tree.refuses place then
    .error (.file .denied path.text)
  else
    match tree.entryAt? place with
    | some .directory => .error (.file .isDirectory path.text)
    | _ => .ok (tree.setAt place (.file (tree.arriving place content)))

/-- Why the device fails when the file at a path is written, if it does. -/
def deviceFault? (tree : FileTree) (path : Path) : Option DeviceCause :=
  match tree.locate path with
  | .ok place => (tree.setback? place).map Setback.cause
  | .error _ => none

/-- Whether a directory can be made at a place where nothing is. -/
def admits (tree : FileTree) (place : Place) : Bool :=
  (tree.namesTo? place).isSome || tree.writable.contains place

/-- The tree after making a directory, unless it is there already. -/
def makeDirectory (tree : FileTree) (path : Path) : Except Fault FileTree := do
  let place ← tree.locate path
  match tree.entryAt? place with
  | some .directory => .ok tree
  | some (.file _) => .error (.file .taken path.text)
  | none =>
      if tree.admits place then
        .ok (tree.setAt place .directory)
      else
        .error (.file .denied path.text)

/-- The last names of the entries of a table that lie in a place. -/
def namesUnder
    (place : List String)
    (entries : List (List String × Entry)) :
    List String :=
  entries.filterMap fun entry =>
    if entry.1.dropLast = place then entry.1.getLast? else none

/-- The names in a directory; a path to anything else has none. -/
def namesIn (tree : FileTree) (path : Path) : List String :=
  match tree.locate path with
  | .ok place =>
      match tree.namesTo? place with
      | some names => namesUnder names tree.entries
      | none =>
          let towardsTop := (place.isPrefixOf? tree.top).bind List.head?
          towardsTop.toList ++ namesUnder place tree.elsewhere
  | .error _ => []

/-- The written path of an entry; that of a directory ends in a slash. -/
def listedPath (entry : List String × Entry) : String :=
  Text.join "/" entry.1 ++ match entry.2 with
    | .directory => "/"
    | .file _ => ""

/--
All entries below the top with their written paths, in the order of these.
-/
def listing (tree : FileTree) : List (String × Entry) :=
  (tree.entries.map fun entry => (listedPath entry, entry.2)).mergeSort
    fun first second => first.1 ≤ second.1

end FileTree

end Flowgen
