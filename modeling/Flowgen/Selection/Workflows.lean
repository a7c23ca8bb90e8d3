import Flowgen.Session
import Flowgen.Value.Number

namespace Flowgen.Selection

/-!
# Choosing workflows

The workflows are shown with numbers, and the user types the numbers of some.
The question is repeated until every typed number is one that was shown.
-/

/-- A line that divides the output. -/
def divider : String :=
  String.ofList (List.replicate 60 '=')

/-- Show workflows, numbered from a number on. -/
def showNumbered (number : Nat) : List Value → Session Unit
  | [] => return
  | workflow :: workflows => do
      let name ← workflow.get "name" (.text "Workflow sem nome")
      let id ← workflow.get "id" (.text "N/A")
      Session.print
        ("[" ++ toString number ++ "] " ++ name.display ++ " (ID: " ++
          id.display ++ ")")
      showNumbered (number + 1) workflows

/-- Show the workflows to choose from. -/
def showWorkflows (workflows : Value) : Session Unit := do
  if workflows.isTruthy then
    Session.print ("\n" ++ divider)
    Session.print "Escolha os workflows que deseja converter:"
    Session.print divider
    showNumbered 1 (← workflows.elements)
    Session.print divider
  else
    Session.print "Nenhum workflow encontrado."

/-- The numbers that an answer lists between commas. -/
def typedNumbers (answer : String) : Except Fault (List Int) :=
  (Text.split answer ",").mapM fun piece => Numeral.integer (Text.trim piece)

/-- The item with a number, counted from one. -/
def numbered? (items : List Value) (number : Int) : Option Value :=
  if 1 ≤ number then items[(number - 1).toNat]? else none

/-- What follows from the numbers that were typed. -/
def judgeNumbers
    (workflows : List Value)
    (numbers : List Int) :
    Session.Verdict (List Value) :=
  let invalid :=
    numbers.filter fun number => (numbered? workflows number).isNone
  let chosen := numbers.filterMap (numbered? workflows)
  if invalid.isEmpty then
    .settled ("\n✓ " ++ toString chosen.length ++
      " workflow(s) selecionado(s).\n") chosen
  else
    .again
      ("Índices inválidos: " ++ Text.join ", " (invalid.map toString) ++ "\n"
        ++ "Por favor, escolha números entre 1 e " ++
        toString workflows.length ++ "\n")

/-- What follows from an answer. -/
def judgeWorkflows
    (workflows : List Value) :
    Answer → Session.Verdict (List Value)
  | .typed text =>
      let answer := Text.trim text
      if answer = "" then
        .again "Nenhuma seleção feita. Tente novamente.\n"
      else
        match typedNumbers answer with
        | .ok numbers => judgeNumbers workflows numbers
        | .error _ =>
            .again ("Entrada inválida. Por favor, digite números separados "
              ++ "por vírgula (Ex: 1,3,4)\n")
  | .interrupt _ => .settled "\n\nOperação cancelada pelo usuário.\n" []
  | .endOfInput text => .again ("Erro ao processar seleção: " ++ text ++ "\n")

/-- Let the user choose workflows. -/
def chooseWorkflows (workflows : Value) : Session (List Value) := do
  if workflows.isTruthy then
    showWorkflows workflows
    let items ← workflows.elements
    Session.askUntil
      "\nDigite os números separados por vírgula (Ex: 1,3,4): "
      (judgeWorkflows items)
  else
    return []

end Flowgen.Selection
