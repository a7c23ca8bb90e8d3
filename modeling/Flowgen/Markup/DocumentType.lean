import Flowgen.Markup.Entity
import Flowgen.Markup.TypeToken

namespace Flowgen.Markup

/-!
# Reading document types

A document type names the document element and may hold declarations: of
entities, of the attributes of elements, of the content of elements, and of
notations.  All of them must be well-formed; only the first two have effects.
-/

/--
The text of an entity from its declaration, behind what was read before, last
first.
-/
def entityTextFrom? (alphabet : Alphabet) (passed : List Char) :
    Nat → List Char → Option (List Char)
  | _, [] => some passed.reverse
  | 0, _ => none
  | fuel + 1, '&' :: '#' :: text =>
      match reference? alphabet ('#' :: text) with
      | some (.numbered character, rest) =>
          entityTextFrom? alphabet (character :: passed) fuel rest
      | _ => none
  | fuel + 1, '&' :: text =>
      match simpleName? alphabet text with
      | some (name, ';' :: rest) =>
          entityTextFrom? alphabet (';' :: name.reverse ++ '&' :: passed) fuel
            rest
      | _ => none
  | fuel + 1, character :: text =>
      if character = '%' then
        none
      else
        entityTextFrom? alphabet (character :: passed) fuel text

/--
The text of an entity from its declaration: character numbers are resolved,
names are kept.
-/
def entityText? (manner : Manner) (text : List Char) : Option (List Char) :=
  let lines := manner.lines text
  entityTextFrom? manner.alphabet [] lines.length lines

/-- Whether a character may stand in a public name. -/
def isPublic (character : Char) : Bool :=
  character.isAlphanum || " \r\n-'()+,./:=?;!*#@$_%".toList.contains character

/-- A literal as the next token. -/
def literalToken?
    (alphabet : Alphabet)
    (text : List Char) :
    Option (List Char × List Char) :=
  match TypeToken.next? alphabet text with
  | some (.literal content, rest) => some (content, rest)
  | _ => none

/-- A public name as the next token. -/
def publicName?
    (alphabet : Alphabet)
    (text : List Char) :
    Option (List Char × List Char) := do
  let (name, rest) ← literalToken? alphabet text
  if name.all isPublic then some (name, rest) else none

/-- What follows the end of a declaration, which must come next. -/
def closed? (alphabet : Alphabet) (text : List Char) : Option (List Char) :=
  match TypeToken.next? alphabet text with
  | some (.close, rest) => some rest
  | _ => none

/--
What follows the place of something outside the document, of which the first
word is given.
-/
def afterPlace? (alphabet : Alphabet) (word : TypeToken) (text : List Char) :
    Option (List Char) :=
  if word.isWord "SYSTEM" then do
    return (← literalToken? alphabet text).2
  else if word.isWord "PUBLIC" then do
    let (_, rest) ← publicName? alphabet text
    return (← literalToken? alphabet rest).2
  else
    none

/--
What an entity stands for, after its name; a text that does not count is not
looked at.
-/
def entityMeaning? (manner : Manner) (isHeeded : Bool) (text : List Char) :
    Option (Entity × List Char) := do
  let (token, rest) ← TypeToken.next? manner.alphabet text
  match token with
  | .literal content =>
      if isHeeded then
        return (.internal (← entityText? manner content), rest)
      else
        return (.internal [], rest)
  | word => return (.external, ← afterPlace? manner.alphabet word rest)

/--
What follows the notation of an entity that is no text, if it has one, and its
end.
-/
def afterNotation?
    (alphabet : Alphabet)
    (text : List Char) :
    Option (List Char) := do
  let (token, rest) ← TypeToken.next? alphabet text
  if token.isWord "NDATA" then
    let (name, rest) ← TypeToken.next? alphabet rest
    let _ ← name.plainName?
    closed? alphabet rest
  else if token = .close then
    return rest
  else
    none

/-- The declaration of an entity, after its keyword. -/
def entityDeclaration?
    (manner : Manner)
    (type : DocumentType)
    (text : List Char) :
    
    Option (DocumentType × List Char) := do
  let (token, rest) ← TypeToken.next? manner.alphabet text
  if token = .percent then
    let (name, rest) ← TypeToken.next? manner.alphabet rest
    let _ ← name.plainName?
    let (_, rest) ← entityMeaning? manner type.isHeeded rest
    return (type, ← closed? manner.alphabet rest)
  else
    let name ← token.plainName?
    let (entity, rest) ← entityMeaning? manner type.isHeeded rest
    let rest ←
      match entity with
      | .internal _ => closed? manner.alphabet rest
      | .external => afterNotation? manner.alphabet rest
    return (type.addEntity name entity, rest)

/-- What follows the declaration of a notation, after its keyword. -/
def afterNotationDeclaration?
    (alphabet : Alphabet)
    (text : List Char) :
    Option (List Char) := do
  let (name, rest) ← TypeToken.next? alphabet text
  let _ ← name.plainName?
  let (word, rest) ← TypeToken.next? alphabet rest
  if word.isWord "PUBLIC" then
    let (_, rest) ← publicName? alphabet rest
    match literalToken? alphabet rest with
    | some (_, rest) => closed? alphabet rest
    | none => closed? alphabet rest
  else if word.isWord "SYSTEM" then
    closed? alphabet (← literalToken? alphabet rest).2
  else
    none

/-- What divides the parts of a group. -/
inductive Divider where
  | comma
  | bar
  deriving DecidableEq, Repr

/--
What follows the groups of a content model.  The open groups are given with
what divides their parts so far, innermost first, and whether a part must come.
-/
def afterGroups? (alphabet : Alphabet) :
    Nat → Bool → List (Option Divider) → List Char → Option (List Char)
  | _, _, [], text => some text
  | 0, _, _, _ => none
  | fuel + 1, true, groups, text => do
      let (token, rest) ← TypeToken.next? alphabet text
      match token with
      | .leftParenthesis =>
          afterGroups? alphabet fuel true (none :: groups) rest
      | .name .loose _ _ => none
      | .name _ _ _ => afterGroups? alphabet fuel false groups rest
      | _ => none
  | fuel + 1, false, group :: groups, text => do
      let (token, rest) ← TypeToken.next? alphabet text
      match token with
      | .rightParenthesis _ => afterGroups? alphabet fuel false groups rest
      | .comma =>
          if group = some .bar then none
          else afterGroups? alphabet fuel true (some .comma :: groups) rest
      | .bar =>
          if group = some .comma then none
          else afterGroups? alphabet fuel true (some .bar :: groups) rest
      | _ => none

/--
What follows mixed content, after its keyword: the group must be repeated if
it has names.
-/
def afterMixed?
    (alphabet : Alphabet) :
    Nat → Bool → List Char → Option (List Char)
  | 0, _, _ => none
  | fuel + 1, hasNames, text => do
      let (token, rest) ← TypeToken.next? alphabet text
      match token with
      | .rightParenthesis none => if hasNames then none else some rest
      | .rightParenthesis (some '*') => some rest
      | .bar =>
          let (name, rest) ← TypeToken.next? alphabet rest
          let _ ← name.qualifiedName?
          afterMixed? alphabet fuel true rest
      | _ => none

/-- What follows the declaration of an element, after its keyword. -/
def afterElementDeclaration?
    (alphabet : Alphabet)
    (text : List Char) :
    Option (List Char) := do
  let (name, rest) ← TypeToken.next? alphabet text
  let _ ← name.qualifiedName?
  let (model, rest) ← TypeToken.next? alphabet rest
  if model = .leftParenthesis then
    match TypeToken.next? alphabet rest with
    | some (.hash word, inside) =>
        if word = "PCDATA".toList then
          closed? alphabet (← afterMixed? alphabet inside.length false inside)
        else
          none
    | _ => closed? alphabet (← afterGroups? alphabet (rest.length + 1) true
        [none] rest)
  else if model.isWord "EMPTY" || model.isWord "ANY" then
    closed? alphabet rest
  else
    none

/-- What follows choices up to their closing parenthesis. -/
def afterChoices? (alphabet : Alphabet) (isChoice : TypeToken → Bool) :
    Nat → List Char → Option (List Char)
  | 0, _ => none
  | fuel + 1, text => do
      let (choice, rest) ← TypeToken.next? alphabet text
      if isChoice choice then
        match ← TypeToken.next? alphabet rest with
        | (.rightParenthesis none, rest) => some rest
        | (.bar, rest) => afterChoices? alphabet isChoice fuel rest
        | _ => none
      else
        none

/-- Whether a token is a run of name characters without a mark. -/
def isNameToken : TypeToken → Bool
  | .name _ none _ => true
  | _ => false

/-- The types of attributes with a name, the type of any text apart. -/
def attributeTypes : List String :=
  ["ID", "IDREF", "IDREFS", "ENTITY", "ENTITIES", "NMTOKEN", "NMTOKENS"]

/-- The type of an attribute: whether it takes any text. -/
def attributeType?
    (alphabet : Alphabet)
    (text : List Char) :
    Option (Bool × List Char) := do
  let (token, rest) ← TypeToken.next? alphabet text
  if token.isWord "CDATA" then
    return (true, rest)
  else if attributeTypes.any fun word => token.isWord word then
    return (false, rest)
  else if token = .leftParenthesis then
    return (false, ← afterChoices? alphabet isNameToken rest.length rest)
  else if token.isWord "NOTATION" then
    let (opening, rest) ← TypeToken.next? alphabet rest
    if opening = .leftParenthesis then
      let isName := fun (choice : TypeToken) => choice.plainName?.isSome
      return (false, ← afterChoices? alphabet isName rest.length rest)
    else
      none
  else
    none

/-- The text of the value that an attribute has by itself, if it has one. -/
def ownValue? (alphabet : Alphabet) (text : List Char) :
    Option (Option (List Char) × List Char) := do
  let (token, rest) ← TypeToken.next? alphabet text
  match token with
  | .literal content => return (some content, rest)
  | .hash word =>
      if word = "IMPLIED".toList ∨ word = "REQUIRED".toList then
        return (none, rest)
      else if word = "FIXED".toList then
        let (content, rest) ← literalToken? alphabet rest
        return (some content, rest)
      else
        none
  | _ => none

/--
A document type with one more rule; the value is looked at only if it counts.
-/
def withRule?
    (source : Source)
    (type : DocumentType)
    (element : List Char)
    (name : QualifiedName)
    (isText : Bool)
    (value : Option (List Char))
    (rest : List Char) :
    Option DocumentType :=
  match value with
  | none => some (type.addRule ⟨element, name, isText, none⟩)
  | some text =>
      if type.isHeeded then do
        let budget := type.budget.arrive source rest
        let (resolved, budget) ← valueOf? type source.manner isText text budget
        return { type with budget := budget }.addRule
          ⟨element, name, isText, some resolved⟩
      else
        some type

/--
The rules for the attributes of an element up to the end of the declaration.
-/
def attributeRules? (source : Source) (element : List Char) :
    Nat → DocumentType → List Char → Option (DocumentType × List Char)
  | 0, _, _ => none
  | fuel + 1, type, text => do
      let alphabet := source.manner.alphabet
      let (token, rest) ← TypeToken.next? alphabet text
      if token = .close then
        return (type, rest)
      else
        let name ← token.qualifiedName?
        let (isText, rest) ← attributeType? alphabet rest
        let (value, rest) ← ownValue? alphabet rest
        let extended ← withRule? source type element name isText value rest
        attributeRules? source element fuel extended rest

/-- A declaration, after its keyword. -/
def declaration?
    (source : Source)
    (type : DocumentType)
    (keyword : List Char)
    (text : List Char) :
    
    Option (DocumentType × List Char) := do
  let alphabet := source.manner.alphabet
  if keyword = "ENTITY".toList then
    entityDeclaration? source.manner type text
  else if keyword = "ATTLIST".toList then
    let (name, rest) ← TypeToken.next? alphabet text
    let element ← name.qualifiedName?
    attributeRules? source element.written rest.length type rest
  else if keyword = "ELEMENT".toList then
    return (type, ← afterElementDeclaration? alphabet text)
  else if keyword = "NOTATION".toList then
    return (type, ← afterNotationDeclaration? alphabet text)
  else
    none

/-- The declarations inside a document type up to its closing bracket. -/
def declarations? (source : Source) :
    Nat → DocumentType → List Char → Option (DocumentType × List Char)
  | 0, _, _ => none
  | fuel + 1, type, text => do
      let (token, rest) ← TypeToken.next? source.manner.alphabet text
      if (type.budget.arrive source rest).holds then
        match token with
        | .rightBracket => return (type, rest)
        | .ignored => declarations? source fuel type rest
        | .parameter =>
            declarations? source fuel
              { type with isDivided := true, isHeeded := type.isStandalone }
                rest
        | .opening keyword =>
            let (extended, rest) ← declaration? source type keyword rest
            declarations? source fuel extended rest
        | _ => none
      else
        none

/--
The declarations of a document type, if a bracket comes next, and its end.
-/
def restOfType?
    (source : Source)
    (type : DocumentType)
    (token : TypeToken)
    (text : List Char) :
    
    Option (DocumentType × List Char) :=
  match token with
  | .close => some (type, text)
  | .leftBracket => do
      let (extended, rest) ← declarations? source (text.length + 1) type text
      return (extended, ← closed? source.manner.alphabet rest)
  | _ => none

/--
A document type, after its keyword: what it declares, and what follows it.
-/
def documentType?
    (source : Source)
    (text : List Char) :
    Option (DocumentType × List Char) := do
  let alphabet := source.manner.alphabet
  let type := DocumentType.empty source
  let (name, rest) ← TypeToken.next? alphabet text
  let _ ← name.qualifiedName?
  let (token, rest) ← TypeToken.next? alphabet rest
  if (token.plainName?).isSome then
    let rest ← afterPlace? alphabet token rest
    let (token, rest) ← TypeToken.next? alphabet rest
    restOfType? source { type with isDivided := true } token rest
  else
    restOfType? source type token rest

end Flowgen.Markup
