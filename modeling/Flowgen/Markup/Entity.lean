import Flowgen.Markup.Source

namespace Flowgen.Markup

/-!
# Entities and values

A document type may declare entities, names for pieces of text, and attributes
with values of their own.  Only entities with a text of their own are used;
those that live in other files are known but cannot be referred to.

What entities bring is limited: once a document has become large, it may not be
many times as large as what was read of it.
-/

/-- The size from which on the growth of a document is limited. -/
def growthFloor : Nat :=
  8388608

/--
How many bytes entities may bring in all when a number of bytes has been read.
The document may grow to one hundred times its size, or to as near above it as
makes no difference in a number of 24 binary digits.
-/
def allowance (read : Nat) : Nat :=
  max (growthFloor - 1 - read)
    (read * (100 * Nat.pow 2 18 + 1) / Nat.pow 2 18 - read)

/-- What was read of a document, and what entities brought into it. -/
structure Budget where
  /-- How many bytes the document has in all. -/
  size : Nat
  /-- How many of them were read, found only when it matters. -/
  read : Thunk Nat
  /-- How many of them count once more. -/
  again : Nat
  /-- How many bytes entities brought. -/
  brought : Nat

namespace Budget

/-- The budget at the start of a document. -/
def ofSource (source : Source) : Budget where
  size := source.size
  read := .pure 0
  again := 0
  brought := 0

/-- The budget when a document was read up to a rest. -/
def arrive (budget : Budget) (source : Source) (rest : List Char) : Budget :=
  { budget with read := Thunk.mk fun _ => source.sizeBefore rest }

/-- Count bytes that entities bring. -/
def bring (budget : Budget) (count : Nat) : Budget :=
  { budget with brought := budget.brought + count }

/--
Whether entities have brought no more than they may; a small document always
holds.
-/
def holds (budget : Budget) : Bool :=
  budget.brought + budget.size + budget.again < growthFloor
    || budget.brought ≤ allowance (budget.read.get + budget.again)

/-- Count bytes that an entity brings, if there may be so many. -/
def bring? (budget : Budget) (count : Nat) : Option Budget :=
  let after := budget.bring count
  if after.holds then some after else none

end Budget

/-- What an entity stands for. -/
inductive Entity where
  | internal (text : List Char)
  | external
  deriving DecidableEq, Repr

/-- A declared attribute of an element. -/
structure AttributeRule where
  element : List Char
  name : QualifiedName
  /-- Whether the value is any text; other values have no needless space. -/
  isText : Bool
  value : Option (List Char)
  deriving DecidableEq, Repr

/-- What a document type declares. -/
structure DocumentType where
  entities : List (List Char × Entity)
  rules : List AttributeRule
  isStandalone : Bool
  /-- Whether there are declarations elsewhere. -/
  isDivided : Bool
  /-- Whether further declarations count. -/
  isHeeded : Bool
  budget : Budget

namespace DocumentType

/-- No declarations. -/
def empty (source : Source) : DocumentType where
  entities := []
  rules := []
  isStandalone := source.isStandalone
  isDivided := false
  isHeeded := true
  budget := .ofSource source

/-- Whether an entity may be declared elsewhere. -/
def isPartial (type : DocumentType) : Bool :=
  type.isDivided && !type.isStandalone

/-- Add an entity if declarations count; the first one of a name holds. -/
def addEntity
    (type : DocumentType)
    (name : List Char)
    (entity : Entity) :
    DocumentType :=
  if type.isHeeded && (type.entities.lookup name).isNone then
    { type with entities := type.entities ++ [(name, entity)] }
  else
    type

/-- The rule for an attribute of an element. -/
def rule? (type : DocumentType) (element : List Char) (name : QualifiedName) :
    Option AttributeRule :=
  type.rules.find? fun rule => rule.element == element && rule.name == name

/-- Add a rule if declarations count; the first one for an attribute holds. -/
def addRule (type : DocumentType) (rule : AttributeRule) : DocumentType :=
  if type.isHeeded && (type.rule? rule.element rule.name).isNone then
    { type with rules := type.rules ++ [rule] }
  else
    type

/-- Whether the value of an attribute is any text. -/
def isText
    (type : DocumentType)
    (element : List Char)
    (name : QualifiedName) :
    Bool :=
  ((type.rule? element name).map AttributeRule.isText).getD true

end DocumentType

/-- A value in the making: its characters, last first. -/
structure Draft where
  reversed : List Char
  budget : Budget

namespace Draft

/-- Add a character. -/
def push (draft : Draft) (character : Char) : Draft :=
  { draft with reversed := character :: draft.reversed }

end Draft

/--
Add a text to a draft with its references resolved; `expand` takes an entity.
-/
def extendDraft
    (alphabet : Alphabet)
    (expand : List Char → Draft → Option Draft) :
    
    Nat → List Char → Draft → Option Draft
  | _, [], draft => some draft
  | 0, _, _ => none
  | fuel + 1, '&' :: text, draft =>
      match reference? alphabet text with
      | none => none
      | some (.numbered character, rest) =>
          extendDraft alphabet expand fuel rest (draft.push character)
      | some (.named character, rest) =>
          extendDraft alphabet expand fuel rest
            { draft.push character with budget := draft.budget.bring 1 }
      | some (.entity name, rest) =>
          match expand name draft with
          | none => none
          | some expanded => extendDraft alphabet expand fuel rest expanded
  | fuel + 1, character :: text, draft =>
      if character = '<' then
        none
      else
        extendDraft alphabet expand fuel text
          (draft.push (if isSpace character then ' ' else character))

/-- Add the text of an entity to a draft, to a depth of entities in entities. -/
def expandInDraft (type : DocumentType) : Nat → List Char → Draft → Option Draft
  | 0, name, draft =>
      if type.isPartial && (type.entities.lookup name).isNone then some draft
        else none
  | depth + 1, name, draft =>
      match type.entities.lookup name with
      | some (.internal content) =>
          match draft.budget.bring? (Manner.inner.size content) with
          | none => none
          | some budget =>
              extendDraft .standard (expandInDraft type depth) content.length
                content { draft with budget := budget }
      | some .external => none
      | none => if type.isPartial then some draft else none

/--
A text without spaces at its ends and with one space for each run of them.
-/
def collapsed (text : List Char) : List Char :=
  List.intercalate [' '] (Text.runsOutside (· == ' ') text)

/-- The value that a text stands for, and the budget after it. -/
def valueOf?
    (type : DocumentType)
    (manner : Manner)
    (isText : Bool)
    (text : List Char)
    (budget : Budget) :
    Option (List Char × Budget) := do
  let lines := manner.lines text
  let expand := expandInDraft type type.entities.length
  let draft ← extendDraft manner.alphabet expand lines.length lines ⟨[], budget⟩
  let value := draft.reversed.reverse
  return (if isText then value else collapsed value, draft.budget)

end Flowgen.Markup
