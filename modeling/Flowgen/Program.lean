import Flowgen.Class.Generator
import Flowgen.Client
import Flowgen.Selection.Languages
import Flowgen.Settings

namespace Flowgen.Program

/-!
# The program

The program reads its settings, asks the server for workflows, lets the user
choose workflows and languages, and saves a class for each chosen workflow in
each chosen language.
-/

/-- The version of the program. -/
def version : String :=
  "0.1.0"

/-- Print lines between two dividers. -/
def printBanner (lead text : String) : Session Unit := do
  Session.print (lead ++ Selection.divider)
  Session.print text
  Session.print Selection.divider

/-- The key for the server: the configured one, or one that the user types. -/
def askForKey (configured : Value) : Session (Option Value) := do
  if configured.isTruthy then
    return some configured
  else
    Session.print "\n⚠ Aviso: API Key do n8n não configurada."
    Session.print "Por favor, configure a API Key em config/settings.json"
    let typed :=
      Text.trim (← Session.ask "Ou digite a API Key agora (Enter para pular): ")
    if typed = "" then
      Session.print "Operação cancelada."
      return none
    else
      return some (.text typed)

/--
Save generated code and say whether it went well; without code do nothing.
-/
def saved (generator : Class.Generator) (workflow : Value) :
    Option String → Session (Option Bool)
  | none => return none
  | some "" => return none
  | some code => some <$> generator.save workflow (.text code)

/-- What comes of generating a workflow in one language and saving it. -/
def converted (workflow : Value) (language : Language) :
    Session (Option Bool) := do
  let generator ← Class.Generator.make .standard language.code
  saved generator workflow (← generator.generate workflow)

/-- Report what came of a conversion. -/
def reportConverted (name : Value) (language : Language) :
    Option Bool → Session Unit
  | none =>
      Session.print
        ("  ❌ Erro ao gerar código " ++ language.name ++ " para " ++
          name.display)
  | some true =>
      Session.print
        ("  ✓ " ++ name.display ++ " convertido para " ++ language.name
          ++ " com sucesso!")
  | some false =>
      Session.print
        ("  ❌ Erro ao salvar arquivo " ++ language.name ++ " para " ++
          name.display)

/-- Generate and save a workflow in one language. -/
def convert (name : Value) (workflow : Value) (language : Language) :
    Session Unit := do
  Session.print ("\n  → Gerando código em " ++ language.name ++ "...")
  reportConverted name language (← converted workflow language)

/-- Fetch one chosen workflow and convert it to each language. -/
def convertChosen
    (client : Client)
    (languages : List Language)
    (chosen : Value) :
    
    Session Unit := do
  let name ← chosen.get "name" (.text "Workflow sem nome")
  let id ← chosen.get "id" .null
  printBanner "\n" ("Processando: " ++ name.display)
  let workflow ← client.workflow id
  if workflow.isTruthy then
    languages.forM (convert name workflow)
  else
    Session.print ("❌ Erro ao buscar dados completos do workflow " ++
      name.display)

/-- Convert every chosen workflow. -/
def convertAll
    (client : Client)
    (languages : List Language)
    (chosen : List Value) :
    
    Session Unit := do
  printBanner "\n" "Gerando código..."
  chosen.forM (convertChosen client languages)
  printBanner "\n" "Conversão concluída!"

/--
Let the user choose among workflows and languages, and convert what was
chosen.
-/
def chooseAndConvert
    (client : Client)
    (workflows defaultLanguage : Value) :
    Session Unit := do
  let chosen ← Selection.chooseWorkflows workflows
  if chosen.isEmpty then
    Session.print "Nenhum workflow selecionado. Encerrando."
  else
    let languages ← Selection.chooseLanguages defaultLanguage
    convertAll client languages chosen

/-- Let the user choose among the workflows that the server lists, if any. -/
def convertOffered (client : Client) (defaultLanguage workflows : Value) :
    Session Unit := do
  if workflows.isTruthy then
    let count ← workflows.count
    Session.print ("✓ " ++ toString count ++ " workflow(s) encontrado(s).")
    chooseAndConvert client workflows defaultLanguage
  else
    Session.print "Nenhum workflow encontrado."

/-- Go on after the test of the connection. -/
def afterTest (client : Client) (defaultLanguage : Value) (isAccepted : Bool) :
    Session Unit := do
  if isAccepted then
    Session.print "✓ Conexão estabelecida com sucesso!"
    Session.print "\nBuscando workflows..."
    convertOffered client defaultLanguage (← client.workflows)
  else
    Session.print "❌ Erro: Não foi possível conectar ao n8n."
    Session.print "Verifique a URL e a API Key nas configurações."

/-- Work with a server at an address. -/
def serve (address key defaultLanguage : Value) : Session Unit := do
  Session.print ("\nConectando ao n8n em: " ++ address.display)
  let client ← Client.make address key
  afterTest client defaultLanguage (← client.isReachable)

/-- What the program finds in its settings. -/
structure Configuration where
  address : Value
  key : Value
  language : Value

/-- Greet the user and read the settings. -/
def configuration : Session Configuration := do
  printBanner "" "n8ncoding - Conversor de Workflows n8n para Código"
  let settings ← Settings.load
  let server ← settings.get "n8n" (.object [])
  let output ← settings.get "output" (.object [])
  let address ← server.get "url" (.text "http://localhost:5678")
  let configured ← server.get "api_key" (.text "")
  let language ← output.get "language" (.text "php")
  return ⟨address, configured, language⟩

/-- Work with the server of a configuration, if there is a key for it. -/
def connect (found : Configuration) : Session Unit := do
  match ← askForKey found.key with
  | none => return
  | some key => serve found.address key found.language

/-- The program without its outermost handlers. -/
def body : Session Unit := do
  connect (← configuration)

/-- Report the fault that ended the program. -/
def reportFault (fault : Fault) : Session Unit :=
  match fault with
  | .interrupted _ => Session.print "\n\nOperação cancelada pelo usuário."
  | .answersExhausted => throw .answersExhausted
  | other => Session.print ("\n❌ Erro inesperado: " ++ other.message)

/-- The program. -/
def run : Session Unit :=
  tryCatch body reportFault

end Flowgen.Program
