import Flowgen.Markup.DocumentType
import Flowgen.Markup.Element

namespace Flowgen.Markup

/-!
# Documents

A document has a prolog, one element, and nothing but space, comments and
instructions after it.
-/

/--
What follows space, comments and instructions outside the element, if all fits
before it.
-/
def skipMisc (alphabet : Alphabet) (fits : List Char → Bool) :
    Nat → List Char → Option (List Char)
  | 0, text => some text
  | fuel + 1, text =>
      let rest := skipSpace text
      if fits rest then
        match rest with
        | '<' :: '!' :: '-' :: '-' :: rest =>
            (afterComment? rest).bind (skipMisc alphabet fits fuel)
        | '<' :: '?' :: rest =>
            (afterInstruction? alphabet rest).bind (skipMisc alphabet fits fuel)
        | rest => some rest
      else
        none

/-- The document type, if there is one, and what follows it. -/
def prolog? (source : Source) : Option (DocumentType × List Char) := do
  let alphabet := source.manner.alphabet
  let rest ← skipMisc alphabet (fun _ => true) source.text.length source.text
  match Text.after? "<!DOCTYPE".toList rest with
  | some rest =>
      let (type, rest) ← documentType? source (← needSpace? rest)
      let fits := fun rest => (type.budget.arrive source rest).holds
      return (type, ← skipMisc alphabet fits (rest.length + 1) rest)
  | none => return (.empty source, rest)

/--
Count what was read of a document up to a rest, if entities have not brought
too much.
-/
def arriveAt
    (source : Source)
    (rest : List Char)
    (progress : Progress) :
    Option Progress :=
  let budget := progress.budget.arrive source rest
  if budget.holds then some { progress with budget := budget } else none

/-- Read the element of a document after its prolog. -/
def element? (source : Source) (type : DocumentType) (text : List Char) :
    Option (Progress × List Char) := do
  let _ ← Text.after? ['<'] text
  let start : Progress := ⟨[], initialNamespaces, none, type.budget⟩
  feed type source.manner (expandEntity type type.entities.length)
    (arriveAt source) 0 (text.length + 1) text start

/-- The element of a document. -/
def document? (source : Source) : Option Element := do
  if source.text.all isAllowed then
    let (type, rest) ← prolog? source
    let (progress, rest) ← element? source type rest
    let element ← progress.root
    let fits := fun rest => (progress.budget.arrive source rest).holds
    let rest ← skipMisc source.manner.alphabet fits (rest.length + 1) rest
    if rest.isEmpty then some element else none
  else
    none

/-- The element of the document in a file. -/
def parse (content : Content) : Except Fault Element := do
  require (document? (← Source.ofContent content))

end Flowgen.Markup
