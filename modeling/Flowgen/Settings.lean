import Flowgen.Json.Printer
import Flowgen.Json.Reader
import Flowgen.Session

namespace Flowgen.Settings

/-!
# Settings

Settings are an object.  A text of the form `${name}` in it stands for an
environment variable, at any depth of nested objects.
-/

/-- The variable that a text refers to, if it is a reference as a whole. -/
def reference? (text : String) : Option String :=
  match Text.after? "$\x7b".toList text.toList with
  | some rest =>
      if rest.getLast? = some '\x7d' then some (String.ofList rest.dropLast)
        else none
  | none => none

/-- What a text stands for in an environment. -/
def resolveText
    (environment : List (String × String))
    (text : String) :
    String :=
  match reference? text with
  | some name => (environment.lookup name).getD ""
  | none => text

/--
What a single value stands for; only texts stand for anything but themselves.
-/
def resolveValue (environment : List (String × String)) : Value → Value
  | .text content => .text (resolveText environment content)
  | other => other

mutual

/-- Resolve the fields of an object. -/
def resolveFields (environment : List (String × String)) :
    List (String × Value) → List (String × Value)
  | [] => []
  | (name, value) :: fields =>
      (name, resolveField environment value) :: resolveFields environment fields

/-- Resolve the value of a field; lists are left as they are. -/
def resolveField (environment : List (String × String)) : Value → Value
  | .object fields => .object (resolveFields environment fields)
  | .text content => .text (resolveText environment content)
  | .list items => .list items
  | .real number => .real number
  | .int number => .int number
  | .bool flag => .bool flag
  | .null => .null

end

mutual

/-- The variables that the fields of an object refer to. -/
def referencesInFields : List (String × Value) → List String
  | [] => []
  | (_, value) :: fields => references value ++ referencesInFields fields

/-- The variables that a value refers to, in texts and in nested objects. -/
def references : Value → List String
  | .object fields => referencesInFields fields
  | .text content => (reference? content).toList
  | .list _ => []
  | .real _ => []
  | .int _ => []
  | .bool _ => []
  | .null => []

end

/-- Resolve settings, which must be an object. -/
def resolve
    (environment : List (String × String))
    (settings : Value) :
    Except Fault Value :=
  (settings.fieldsFor .items).map fun fields =>
    .object (resolveFields environment fields)

/-- The settings that are written where there are none. -/
def defaults : Value :=
  .object
    [("n8n", .object
      [("url", .text "$\x7bN8N_URL\x7d"),
       ("api_key", .text "$\x7bN8N_API_KEY\x7d")]),
     ("output", .object
      [("path", .text "output"),
       ("language", .text "php")])]

/-- The directory of the settings file. -/
def directory (home : String) : Path :=
  .inside home ["config"]

/-- The settings file. -/
def file (home : String) : Path :=
  .inside home ["config", "settings.json"]

/-- Write the default settings. -/
def writeDefaults (home : String) : Session Unit := do
  Session.makeDirectory (directory home)
  Session.writeFile (file home) (.text (Json.print (some 2) defaults))

/-- Read and resolve the settings file. -/
def read (home : String) : Session Value := do
  let text ← Session.readText (file home)
  let settings ← Json.parse text
  resolve (← get).environment settings

/--
The resolved settings; without a file the defaults are written, a bad file
counts as empty.
-/
def load : Session Value := do
  let host ← get
  let home := host.files.home
  if ← Session.pathExists (file home) then
    Session.guarded (read home) fun fault => do
      Session.print ("Erro ao carregar configurações: " ++ fault.message)
      return .object []
  else
    Session.print ("Arquivo de configuração não encontrado: " ++
      (file home).text)
    Session.print "Criando arquivo de configuração padrão..."
    writeDefaults home
    resolve host.environment defaults

end Flowgen.Settings
