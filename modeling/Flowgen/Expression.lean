import Flowgen.Text.Blank
import Flowgen.Value.Access

namespace Flowgen

/-!
# Expressions

An expression is a text in markers that refers to the data a workflow was called
with.  It is turned into an access to the parameters of the generated class,
and the parameter it refers to is remembered.
-/

/--
The parameters a class has with their types, and the names that expressions
used.
-/
structure Scope where
  parameters : Fields
  used : List String
  deriving Repr, Inhabited

namespace Scope

/-- A scope that starts with the given parameters. -/
def ofParameters (parameters : Fields) : Scope where
  parameters := parameters
  used := []

/--
Remember that a name is used; a name that is no parameter yet becomes one.
-/
def register (scope : Scope) (name : String) : Scope where
  parameters :=
    match Fields.get? name scope.parameters with
    | some _ => scope.parameters
    | none => scope.parameters ++ [(name, .text "mixed")]
  used := if scope.used.contains name then scope.used else scope.used ++ [name]

end Scope

namespace Expression

/-- How an expression starts. -/
def opening : List Char :=
  ['=', '\x7b', '\x7b']

/-- How an expression ends. -/
def closing : List Char :=
  ['\x7d', '\x7d']

/-- The parts of the call that an expression can name. -/
def sources : List (List Char) :=
  ["body".toList, "query".toList, "headers".toList]

/--
What follows the name of a source and a dot, if the text starts with them.
-/
def afterSource? (text : List Char) : Option (List Char) :=
  sources.findSome? fun source => Text.after? (source ++ ['.']) text

/-- The rest of the line, if it is not empty. -/
def restOfLine? (text : List Char) : Option (List Char) :=
  let line := text.takeWhile fun character => character != '\n'
  if line.isEmpty then none else some line

/--
The path at the start of a text: the marker, a source, and the rest of the
line.
-/
def pathAt? (marker text : List Char) : Option (List Char) :=
  ((Text.after? marker text).bind afterSource?).bind restOfLine?

/-- The first path in a text behind a marker and a source. -/
def findPath? (marker : List Char) : List Char → Option (List Char)
  | [] => none
  | character :: text =>
      match pathAt? marker (character :: text) with
      | some path => some path
      | none => findPath? marker text

/--
The path of an expression that names a source, with or without a dollar sign.
-/
def sourcePath? (text : List Char) : Option (List Char) :=
  match findPath? "$json.".toList text with
  | some path => some path
  | none => findPath? "json.".toList text

/-- Whether a text mentions a source between dots. -/
def mentionsSource (text : List Char) : Bool :=
  sources.any fun source => Text.occurs ('.' :: source ++ ['.']) text

/-- The path of an expression that goes to the data directly. -/
def directPath? (text : List Char) : Option (List Char) :=
  (Text.after? "$json.".toList text).bind restOfLine?

/-- What the inside of an expression means. -/
inductive Meaning where
  /-- An access along these names. -/
  | access (names : List String)
  /-- It mentions a source in a way that no access can be made for. -/
  | unsupported
  /-- It is plain text. -/
  | plain
  deriving DecidableEq, Repr

/-- The names of a dotted path. -/
def pathNames (path : List Char) : List String :=
  (Text.splitOn ['.'] path).map String.ofList

/-- The meaning of the inside of an expression. -/
def meaning (inside : List Char) : Meaning :=
  match sourcePath? inside with
  | some path => .access (pathNames path)
  | none =>
      if mentionsSource inside then
        .unsupported
      else
        match directPath? inside with
        | some path => .access (pathNames path)
        | none => .plain

/--
The inside of a text that is one expression, without the white space around
it.
-/
def inside? (text : List Char) : Option (List Char) :=
  if opening.isPrefixOf text && closing.isSuffixOf text then
    some (Text.trimmed ((text.drop 3).dropLast.dropLast))
  else
    none

/-- A text in double quotes. -/
def literal (text : List Char) : String :=
  String.ofList ('\x22' :: text ++ ['\x22'])

/-- The access to a parameter along names. -/
def accessCode (names : List String) : String :=
  "$this->params" ++ String.join (names.map fun name => "['" ++ name ++ "']")

/-- The code for a text that may be an expression. -/
def renderText (scope : Scope) (text : String) : Except Fault String × Scope :=
  let stripped := Text.trimmed text.toList
  match inside? stripped with
  | none => (.ok (literal stripped), scope)
  | some inside =>
      match meaning inside with
      | .access names =>
          (.ok (accessCode names), scope.register (names.headD ""))
      | .unsupported => (.error .unsupportedSource, scope)
      | .plain => (.ok (literal stripped), scope)

/--
The expression at the start of a text, with its markers: no closing brace
inside.
-/
def expressionAt? (text : List Char) : Option (List Char) :=
  match Text.after? opening text with
  | none => none
  | some rest =>
      let inside := rest.takeWhile fun character => character != '\x7d'
      if !inside.isEmpty && closing.isPrefixOf (rest.drop inside.length) then
        some (opening ++ inside ++ closing)
      else
        none

/-- The expressions in a text after `skip` characters, from left to right. -/
def expressionsAfter : Nat → List Char → List (List Char)
  | _, [] => []
  | skip + 1, _ :: text => expressionsAfter skip text
  | 0, character :: text =>
      match expressionAt? (character :: text) with
      | some expression =>
          expression :: expressionsAfter (expression.length - 1) text
      | none => expressionsAfter 0 text

/-- The expressions in a text, from left to right. -/
def expressionsIn (text : List Char) : List (List Char) :=
  expressionsAfter 0 text

/-- Replace expressions in a text by their code, one after the other. -/
def substitute
    (scope : Scope)
    (text : List Char) :
    List (List Char) → Except Fault (List Char) × Scope
  | [] => (.ok text, scope)
  | expression :: expressions =>
      match renderText scope (String.ofList expression) with
      | (.error fault, after) => (.error fault, after)
      | (.ok code, after) =>
          substitute after (Text.replaceAll expression code.toList text)
            expressions

/-- The code for a text without expressions inside. -/
def renderWhole (scope : Scope) (text : String) : Except Fault String × Scope :=
  if (inside? (Text.trimmed text.toList)).isSome then
    renderText scope text
  else
    (.ok (literal text.toList), scope)

/-- The code for a text with expressions inside, each in its place. -/
def renderMixed (scope : Scope) (text : String) : Except Fault String × Scope :=
  let characters := text.toList
  if Text.occurs opening characters && Text.occurs closing characters then
    match substitute scope characters (expressionsIn characters) with
    | (.error fault, after) => (.error fault, after)
    | (.ok result, after) =>
        if result = characters then
          renderWhole after text
        else if result.head? = some '$' then
          (.ok (String.ofList result), after)
        else
          (.ok (literal result), after)
  else
    renderWhole scope text

/-- Apply a rendering to a value; what is no text stays as it is. -/
def onText
    (render : Scope → String → Except Fault String × Scope)
    (scope : Scope) :
    Value → Except Fault Value × Scope
  | .text content =>
      let result := render scope content
      (result.1.map .text, result.2)
  | other => (.ok other, scope)

end Expression

end Flowgen
