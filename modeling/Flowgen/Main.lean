import Flowgen.Program
import Flowgen.Recording
import Flowgen.Template.Library

namespace Flowgen.Main

/-!
# Command line

Runs the program in the current directory with the templates that come with it.
The replies of the server are read from a recording, the file in the first
argument or `server.json`.  Whenever the program asks, a line is read and the
program is run again with one more answer; only what it prints anew is shown.
At the end, the files that it made or changed are written.
-/

/-- The content of a file, if it can be read. -/
def readContent? (file : String) : IO (Option Content) := do
  try
    return some (.ofBytes (← IO.FS.readBinFile file).toList)
  catch _ =>
    return none

/-- The value in a content, if it is a document. -/
def documentIn (content : Option Content) : Option Value :=
  match content with
  | some (.text text) => (Json.parse text).toOption
  | _ => none

/-- The environment variables with these names that are set. -/
def readEnvironment (names : List String) : IO (List (String × String)) := do
  let found ← names.mapM fun name => do
    return (name, ← IO.getEnv name)
  return found.filterMap fun entry => entry.2.map fun value => (entry.1, value)

/-- The places of the files that the program keeps if they are there. -/
def keptPlaces : List (List String) :=
  ["config", "settings.json"] ::
    Language.all.map fun language =>
      ["output", "credentials", Output.credentialsName language.code]

/--
The files before the program runs: the templates, and the kept files that are
there.
-/
def readFiles : IO FileTree :=
  keptPlaces.foldlM
    (fun tree place => do
      match ← readContent? (Text.join "/" place) with
      | some content => return tree.withFile place content
      | none => return tree)
    (Template.install (.empty "."))

/-- Write the files that the program made or changed. -/
def writeFiles (before after : FileTree) : IO Unit :=
  after.entries.forM fun entry => do
    if before.entry? entry.1 ≠ some entry.2 then
      let path := Text.join "/" entry.1
      match entry.2 with
      | .directory => IO.FS.createDirAll path
      | .file content => IO.FS.writeBinFile path ⟨content.toBytes.toArray⟩

/-- Run the program, asking for one more answer as long as it needs one. -/
partial def interact (host : Host) (shown : Nat) : IO Host := do
  let (outcome, after) := Program.run.start host
  let output ← IO.getStdout
  output.putStr (String.ofList (after.output.toList.drop shown))
  output.flush
  match outcome with
  | .error .answersExhausted =>
      let line ← (← IO.getStdin).getLine
      if line.isEmpty then
        return after
      else
        let typed :=
          String.ofList (line.toList.filter fun character => character != '\n')
        interact { host with answers := host.answers ++ [.typed typed] }
          after.output.length
  | _ => return after

/-- Run the program with the server in a recording. -/
def runWith (recording : String) : IO Unit := do
  let files ← readFiles
  let settings := documentIn (← readContent? "config/settings.json")
  let host : Host :=
    { files := files
      environment := ← readEnvironment
        (Settings.references (settings.getD Settings.defaults))
      answers := []
      server :=
        Recording.serverOf ((documentIn (← readContent? recording)).getD .null)
      requests := []
      output := ""
      setOrder := .asAdded }
  let after ← interact host 0
  writeFiles files after.files

end Flowgen.Main

/-- The command line. -/
def main (arguments : List String) : IO Unit :=
  Flowgen.Main.runWith (arguments.headD "server.json")
