import Flowgen.Language
import Flowgen.Selection.Workflows

namespace Flowgen.Selection

/-!
# Choosing target languages

The languages are shown with numbers, and the user types the numbers of some.  A
valid default can be taken by an empty answer.
-/

/-- Show the languages to choose from. -/
def showLanguages : Session Unit := do
  Session.print ("\n" ++ divider)
  Session.print "Escolha as linguagens de destino:"
  Session.print divider
  Language.all.forM fun language =>
    Session.print ("[" ++ language.option ++ "] " ++ language.name ++ " - " ++
      language.version)
  Session.print divider

/-- Languages without repetition, each at its first place. -/
def distinctLanguages : List Language → List Language
  | [] => []
  | language :: languages =>
      language :: (distinctLanguages languages).filter fun other =>
        other != language

/-- What follows from the pieces of an answer. -/
def judgePieces (pieces : List String) : Session.Verdict (List Language) :=
  let invalid := pieces.filter fun piece => (Language.ofOption? piece).isNone
  let chosen := distinctLanguages (pieces.filterMap Language.ofOption?)
  if invalid.isEmpty then
    let names := (Language.all.filter chosen.contains).map Language.name
    .settled
      ("\n✓ " ++ toString chosen.length ++ " linguagem(s) selecionada(s): "
        ++ Text.join ", " names ++ "\n")
      chosen
  else
    .again
      ("Opções inválidas: " ++ Text.join ", " invalid ++ "\n"
        ++ "Por favor, escolha números entre: "
        ++ Text.join ", " (Language.all.map Language.option) ++ "\n")

/-- What follows from an answer, given the default. -/
def judgeLanguages
    (default : Option Language) :
    Answer → Session.Verdict (List Language)
  | .typed text =>
      let answer := Text.trim text
      if answer = "" then
        match default with
        | some language =>
            .settled ("\n✓ Usando linguagem padrão: " ++ language.name ++ "\n")
              [language]
        | none => .again "Por favor, escolha pelo menos uma linguagem.\n"
      else
        judgePieces ((Text.split answer ",").map Text.trim)
  | .interrupt _ =>
      .settled "\n\nOperação cancelada pelo usuário.\n" [default.getD .php]
  | .endOfInput text => .again ("Erro ao processar seleção: " ++ text ++ "\n")

/-- Let the user choose languages. -/
def chooseLanguages (default : Value) : Session (List Language) := do
  let valid := Language.ofValue? default
  showLanguages
  match valid with
  | some language =>
      Session.print ("\nLinguagem padrão configurada: " ++ language.name)
      Session.print
        "Pressione Enter para usar apenas a padrão ou escolha múltiplas opções."
  | none => pure ()
  Session.askUntil
    "\nDigite os números separados por vírgula (Ex: 1,3) ou Enter para padrão: "
    (judgeLanguages valid)

/-- Let the user choose languages and take the first one. -/
def chooseLanguage (default : Value) : Session Language := do
  return (← chooseLanguages default).headD .php

end Flowgen.Selection
