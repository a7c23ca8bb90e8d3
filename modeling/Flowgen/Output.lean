import Flowgen.Language
import Flowgen.Naming.FileName
import Flowgen.Session

namespace Flowgen

/-!
# The output directory

Generated code is saved below one base directory: a directory for each language,
and one for the credentials that all generated classes share.
-/

/-- An output directory. -/
structure Output where
  base : Path
  deriving Repr

namespace Output

/-- The directory of the credentials. -/
def credentialsDirectory (output : Output) : Path :=
  output.base.join "credentials"

/-- Make the output directory with the directory of the credentials. -/
def make (base : String) : Session Output := do
  let output : Output := ⟨.ofText base⟩
  Session.makeDirectory output.base
  Session.makeDirectory output.credentialsDirectory
  return output

/-- Make and give the directory of a language. -/
def languageDirectory (output : Output) (language : String) : Session Path := do
  let directory := output.base.join language
  Session.makeDirectory directory
  return directory

/-- Make the directory of a language, and give the file for a workflow in it. -/
def workflowFile
    (output : Output)
    (workflow : Value)
    (language : String) :
    Session Path := do
  let directory ← output.languageDirectory language
  let name ← workflow.get "name" (.text "workflow")
  let fileName ← Naming.fileName name
  return directory.join (fileName ++ Language.extensionOr ".txt" language)

/-- The name of the credentials file for a language. -/
def credentialsName (language : String) : String :=
  "Credentials" ++ Language.extensionOr ".php" language

/-- The credentials file for a language. -/
def credentialsFile (output : Output) (language : String) : Path :=
  output.credentialsDirectory.join (credentialsName language)

/-- The template of a credentials file. -/
def credentialsTemplate (name : String) : Path :=
  .ofText ("templates/credentials/" ++ name)

/--
Copy a template to a file if the template exists, and say whether it does.
-/
def copyTemplate (template target : Path) : Session Bool := do
  if ← Session.pathExists template then
    Session.copyFile template target
    return true
  else
    return false

/--
Make sure that the credentials file for a language is there.  An existing one is
kept; a missing one is copied from its template, or else from that of the first
language.
-/
def ensureCredentials (output : Output) (language : String) : Session Bool := do
  let target := output.credentialsFile language
  if ← Session.pathExists target then
    return true
  else if ← copyTemplate (credentialsTemplate (credentialsName language)) target
    then
    return true
  else if language = "php" then
    return false
  else
    copyTemplate (credentialsTemplate "Credentials.php") target

/-- The path from the code of a language to its credentials file. -/
def credentialsReference (language : String) : String :=
  "../credentials/" ++ credentialsName language

end Output

end Flowgen
