import Flowgen.Files.Tree
import Flowgen.SetOrder
import Flowgen.Text.Lines

namespace Flowgen

/-!
# Sessions

What the program does to its surroundings: it reads and writes files, reads the
environment, asks the user, sends requests, and prints.  The surroundings are a
value, the `Host`, and a `Session` is a computation that changes it.  A fault
ends a computation and keeps every change made before it.  How the running
process walks through sets belongs to the surroundings too.
-/

/-- What the user does at a prompt. -/
inductive Answer where
  | typed (text : String)
  | interrupt (text : String)
  | endOfInput (text : String)
  deriving DecidableEq, Repr

/-- What the body of a reply holds. -/
inductive Body where
  | value (content : Value)
  | raw (text : String)
  deriving Repr

/-- How the server reacts to a request. -/
inductive Reply where
  | answer (status : Int) (reason : String) (body : Body)
  | failure (name : String) (text : String)
  deriving Repr

/--
A server: for each address its replies in turn, the last of which repeats.
-/
structure Server where
  replies : List (String × List Reply)
  deriving Repr, Inhabited

/--
A request: its address, the key it carries, and how many seconds it may take.
-/
structure Request where
  address : String
  key : Value
  seconds : Option Nat
  deriving Repr

/-- The surroundings of the program. -/
structure Host where
  files : FileTree
  environment : List (String × String)
  answers : List Answer
  server : Server
  requests : List Request
  output : String
  setOrder : SetOrder
  deriving Inhabited

/-- A computation in the surroundings of the program. -/
abbrev Session (α : Type) : Type :=
  ExceptT Fault (StateM Host) α

namespace Session

/-- Run a session: its outcome, and the surroundings after it. -/
def start (session : Session α) (host : Host) : Except Fault α × Host :=
  session.run.run host

/-- Print a text as it is. -/
def write (text : String) : Session Unit :=
  modify fun host => { host with output := host.output ++ text }

/-- Print a text and end the line. -/
def print (text : String) : Session Unit :=
  write (text ++ "\n")

/-- Print a prompt and take the next answer. -/
def ask (prompt : String) : Session String := do
  write prompt
  let host ← get
  match host.answers with
  | [] => throw .answersExhausted
  | answer :: answers =>
      set { host with answers := answers }
      match answer with
      | .typed text => pure text
      | .interrupt text => throw (.interrupted text)
      | .endOfInput text => throw (.inputEnded text)

/--
What follows from an answer: another question, or an end; either prints its
text.
-/
inductive Verdict (α : Type) where
  | again (text : String)
  | settled (text : String) (result : α)

/--
Ask the user who has the given answers left, until one of them settles the
matter.
-/
def askFrom
    (prompt : String)
    (judge : Answer → Verdict α) :
    List Answer → Session α
  | [] => do
      write prompt
      throw .answersExhausted
  | answer :: answers => do
      write prompt
      modify fun host => { host with answers := answers }
      match judge answer with
      | .again text =>
          write text
          askFrom prompt judge answers
      | .settled text result =>
          write text
          return result

/-- Ask until an answer settles the matter. -/
def askUntil (prompt : String) (judge : Answer → Verdict α) : Session α := do
  askFrom prompt judge (← get).answers

/-- Handle every ordinary fault of a session. -/
def guarded (session : Session α) (handler : Fault → Session α) : Session α :=
  tryCatch session fun fault =>
    if fault.isUncatchable then throw fault else handler fault

/-- The value of an environment variable, empty if it is not set. -/
def environmentVariable (name : String) : Session String := do
  return ((← get).environment.lookup name).getD ""

/-- How the process walks through sets. -/
def setOrder : Session SetOrder := do
  return (← get).setOrder

/-- Whether a path leads to something. -/
def pathExists (path : Path) : Session Bool := do
  (← get).files.has path

/-- The content of the file at a path. -/
def readFile (path : Path) : Session Content := do
  (← get).files.read path

/-- The text of the file at a path, with every line end a line feed. -/
def readText (path : Path) : Session String := do
  let text ← (← readFile path).toText
  return Text.unifyLineEnds text

/-- Change the file tree. -/
def changeFiles (change : FileTree → Except Fault FileTree) : Session Unit := do
  let host ← get
  set { host with files := ← change host.files }

/-- Open a file to write it, which empties it. -/
def openFile (path : Path) : Session Unit :=
  changeFiles fun files => files.write path (.text "")

/-- Why the device fails when the file at a path is written, if it does. -/
def deviceFault? (path : Path) : Session (Option DeviceCause) := do
  return (← get).files.deviceFault? path

/--
Write a file, and say why the device failed if it did.  What had arrived by then
stays in the file.
-/
def storeFile
    (path : Path)
    (content : Content) :
    Session (Option DeviceCause) := do
  let cause ← deviceFault? path
  changeFiles fun files => files.write path content
  return cause

/-- Write a file. -/
def writeFile (path : Path) (content : Content) : Session Unit := do
  match ← storeFile path content with
  | some cause => throw (.device cause)
  | none => return ()

/-- Make a directory unless it is there already. -/
def makeDirectory (path : Path) : Session Unit :=
  changeFiles fun files => files.makeDirectory path

/-- Copy a file. -/
def copyFile (source target : Path) : Session Unit := do
  let content ← readFile source
  match ← storeFile target content with
  | some cause => throw (.copying cause source.text target.text)
  | none => return ()

/-- The next reply for an address, and the table of replies after it. -/
def nextReply (address : String) :
    List (String × List Reply) → Option Reply × List (String × List Reply)
  | [] => (none, [])
  | entry :: entries =>
      if entry.1 = address then
        match entry.2 with
        | [] => (none, entry :: entries)
        | [reply] => (some reply, entry :: entries)
        | reply :: replies => (some reply, (address, replies) :: entries)
      else
        let (reply, rest) := nextReply address entries
        (reply, entry :: rest)

/-- Send a request and take the reply; a failed transport is a fault. -/
def send (request : Request) : Session (Int × String × Body) := do
  let host ← get
  let (reply, replies) := nextReply request.address host.server.replies
  set { host with server := ⟨replies⟩, requests := host.requests ++ [request] }
  match reply with
  | some (.answer status reason body) => pure (status, reason, body)
  | some (.failure name text) => throw (.request (.transport name) text)
  | none => throw (.request (.transport "ConnectionError")
      ("no route to " ++ request.address))

end Session

end Flowgen
