import Flowgen.Markup.Scan

namespace Flowgen.Markup

/-!
# Tokens of document types

What stands in a document type: openings of declarations, names, literals and
signs.  Where a token ends decides whether it is one: a name or a literal must
be followed by space or by one of a few signs.
-/

/--
Whether a name has no colon, has one inside it, or is only a run of name
characters.
-/
inductive NameKind where
  | plain
  | qualified
  | loose
  deriving DecidableEq, Repr

/-- A token of a document type. -/
inductive TypeToken where
  /-- The opening of a declaration, with its keyword. -/
  | opening (keyword : List Char)
  /-- A comment or an instruction. -/
  | ignored
  /-- A reference to a parameter entity. -/
  | parameter
  | percent
  /-- A name, with a mark for how often it may come. -/
  | name (kind : NameKind) (mark : Option Char) (text : List Char)
  /-- A name behind a number sign. -/
  | hash (text : List Char)
  | literal (text : List Char)
  | leftParenthesis
  | rightParenthesis (mark : Option Char)
  | comma
  | bar
  | leftBracket
  | rightBracket
  /-- The end of a declaration. -/
  | close
  deriving DecidableEq, Repr

namespace TypeToken

/-- Whether a character says how often something may come. -/
def isMark (character : Char) : Bool :=
  character == '?' || character == '*' || character == '+'

/-- Whether a character can follow a name. -/
def endsName (character : Char) : Bool :=
  isSpace character || [')', '>', ',', '|', '[', '%'].contains character

/-- Whether a character can follow a name behind a number sign. -/
def endsHash (character : Char) : Bool :=
  isSpace character || [')', '>', '|', '%'].contains character

/-- Whether a character can follow a literal. -/
def endsLiteral (character : Char) : Bool :=
  isSpace character || ['>', '[', '%'].contains character

/-- Whether a character can follow a closing parenthesis. -/
def endsGroup (character : Char) : Bool :=
  isSpace character || ['>', ',', '|', ')'].contains character

/-- The kind of a run of name characters and colons. -/
def kindOf (alphabet : Alphabet) (run : List Char) : NameKind :=
  if run.head?.any alphabet.startsName then
    match Text.splitOn [':'] run with
    | [_] => .plain
    | [_, second] => if second.isEmpty then .loose else .qualified
    | _ => .loose
  else
    .loose

/-- A name with its mark. -/
def name?
    (alphabet : Alphabet)
    (text : List Char) :
    Option (TypeToken × List Char) :=
  let isInside :=
    fun character => alphabet.continuesName character || character == ':'
  let run := text.takeWhile isInside
  let kind := kindOf alphabet run
  match text.dropWhile isInside with
  | [] => none
  | character :: rest =>
      if run.isEmpty then
        none
      else if endsName character then
        some (.name kind none run, character :: rest)
      else if isMark character && kind != .loose then
        some (.name kind (some character) run, rest)
      else
        none

/-- A literal, after its quote. -/
def literal?
    (quote : Char)
    (text : List Char) :
    Option (TypeToken × List Char) := do
  let (content, rest) ← upTo? [quote] text
  if rest.head?.any endsLiteral then
    return (.literal content, rest)
  else
    none

/-- A name behind a number sign. -/
def hash?
    (alphabet : Alphabet)
    (text : List Char) :
    Option (TypeToken × List Char) := do
  let (word, rest) ← simpleName? alphabet text
  if rest.head?.any endsHash then
    return (.hash word, rest)
  else
    none

/-- What a percent sign starts: a reference, or nothing but itself. -/
def afterPercent?
    (alphabet : Alphabet)
    (text : List Char) :
    Option (TypeToken × List Char) :=
  match text with
  | [] => none
  | character :: _ =>
      if isSpace character || character == '%' then
        some (.percent, text)
      else do
        let (_, rest) ← simpleName? alphabet text
        let rest ← Text.after? [';'] rest
        return (.parameter, rest)

/-- A closing parenthesis with its mark. -/
def afterGroup? (text : List Char) : Option (TypeToken × List Char) :=
  match text with
  | [] => none
  | character :: rest =>
      if isMark character then
        some (.rightParenthesis (some character), rest)
      else if endsGroup character then
        some (.rightParenthesis none, text)
      else
        none

/-- A comment or the opening of a declaration, after its exclamation mark. -/
def declaration? (text : List Char) : Option (TypeToken × List Char) :=
  match Text.after? ['-', '-'] text with
  | some rest => (afterComment? rest).map fun rest => (.ignored, rest)
  | none =>
      let keyword := text.takeWhile Char.isAlpha
      let rest := text.drop keyword.length
      if rest.head?.any isSpace then some (.opening keyword, rest) else none

/-- The first token of a text, after any space. -/
def next?
    (alphabet : Alphabet)
    (text : List Char) :
    Option (TypeToken × List Char) :=
  match skipSpace text with
  | [] => none
  | '<' :: '!' :: rest => declaration? rest
  | '<' :: '?' :: rest => (afterInstruction? alphabet rest).map fun rest =>
      (.ignored, rest)
  | '\x22' :: rest => literal? '\x22' rest
  | '\x27' :: rest => literal? '\x27' rest
  | '%' :: rest => afterPercent? alphabet rest
  | '#' :: rest => hash? alphabet rest
  | '(' :: rest => some (.leftParenthesis, rest)
  | ')' :: rest => afterGroup? rest
  | ',' :: rest => some (.comma, rest)
  | '|' :: rest => some (.bar, rest)
  | '[' :: rest => some (.leftBracket, rest)
  | ']' :: ']' :: '>' :: _ => none
  | ']' :: rest => some (.rightBracket, rest)
  | '>' :: rest => some (.close, rest)
  | rest => name? alphabet rest

/-- A token that is a plain name without a mark. -/
def plainName? : TypeToken → Option (List Char)
  | .name .plain none text => some text
  | _ => none

/-- A token that is a name without a mark, with or without a qualifier. -/
def qualifiedName? : TypeToken → Option QualifiedName
  | .name .plain none text => some ⟨none, text⟩
  | .name .qualified none text =>
      some
        ⟨some (text.takeWhile fun character => character != ':'),
         (text.dropWhile fun character => character != ':').drop 1⟩
  | _ => none

/-- Whether a token is a word. -/
def isWord (word : String) (token : TypeToken) : Bool :=
  token.plainName? == some word.toList

end TypeToken

end Flowgen.Markup
