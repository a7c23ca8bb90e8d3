import Flowgen.Docs.FrontMatter
import Flowgen.Session

namespace Flowgen.Docs

/-!
# Keeping two sets of pages in step

The pages in the top directory are plain text, and those of the site open with
front matter.  One task brings the text of the plain pages into the site and
keeps the front matter there; the other brings pages of the site to the top
without their front matter.  A page that cannot be read or written is reported,
and the others are still done.
-/

/-- A page and where its text goes. -/
structure Route where
  source : String
  target : String
  deriving Repr

/-- The plain pages and their places in the site. -/
def intoSite : List Route :=
  [⟨"USAGE.md", "docs/pt/usage.md"⟩,
   ⟨"ENV_SETUP.md", "docs/pt/env-setup.md"⟩,
   ⟨"CONTRIBUTING.md", "docs/pt/contributing.md"⟩,
   ⟨"GITFLOW.md", "docs/pt/gitflow.md"⟩,
   ⟨"TESTING.md", "docs/pt/testing.md"⟩,
   ⟨"CHANGELOG.md", "docs/pt/changelog.md"⟩,
   ⟨"AI_AGENT_EXAMPLE.md", "docs/pt/examples/ai-agent.md"⟩,
   ⟨"CREDENTIALS_CONSTRUCTOR_EXAMPLE.md",
     "docs/pt/examples/credentials-constructor.md"⟩]

/-- The pages of the site and their plain places. -/
def fromSite : List Route :=
  [⟨"docs/en/usage.md", "USAGE.md"⟩,
   ⟨"docs/en/env-setup.md", "ENV_SETUP.md"⟩,
   ⟨"docs/en/contributing.md", "CONTRIBUTING.md"⟩,
   ⟨"docs/en/gitflow.md", "GITFLOW.md"⟩,
   ⟨"docs/en/testing.md", "TESTING.md"⟩,
   ⟨"docs/en/changelog.md", "CHANGELOG.md"⟩,
   ⟨"docs/en/examples/ai-agent.md", "AI_AGENT_EXAMPLE.md"⟩,
   ⟨"docs/en/examples/credentials-constructor.md",
     "CREDENTIALS_CONSTRUCTOR_EXAMPLE.md"⟩]

/-- The path of a page below the top directory. -/
def pagePath (page : String) : Session Path := do
  return (Path.inside (← get).files.home []).join page

/-- Report a fault that kept a page from being read or written. -/
def report (verb page : String) (fault : Fault) : Session Unit :=
  Session.print ("[ERRO] Erro ao " ++ verb ++ " " ++ page ++ ": " ++
    fault.message)

/-- The text of a page, or nothing after a report. -/
def readPage? (page : String) (path : Path) : Session (Option String) :=
  Session.guarded
    (some <$> Session.readText path)
    fun fault => do
      report "ler" page fault
      return none

/--
Write a page and say so in the given words, or report why it could not be
written.
-/
def writePage
    (done page : String)
    (path : Path)
    (text : String) :
    Session Unit :=
  Session.guarded
    (do
      Session.writeFile path (.text text)
      Session.print ("[OK] " ++ done ++ ": " ++ page))
    (report "escrever" page)

/-- Bring one plain page into the site. -/
def publishIntoSite (route : Route) : Session Unit := do
  let source ← pagePath route.source
  let target ← pagePath route.target
  if !(← Session.pathExists source) then
    Session.print ("[AVISO] Arquivo fonte nao existe: " ++ route.source)
  else if !(← Session.pathExists target) then
    Session.print ("[AVISO] Arquivo de destino nao existe: " ++ route.target)
  else
    match ← readPage? route.source source with
    | none => return
    | some text =>
        match ← readPage? route.target target with
        | none => return
        | some former =>
            writePage "Atualizado" route.target target
              (underFrontMatter (.ofText former) text)

/-- Bring one page of the site to its plain place. -/
def publishFromSite (route : Route) : Session Unit := do
  let source ← pagePath route.source
  let target ← pagePath route.target
  if !(← Session.pathExists source) then
    Session.print ("[AVISO] Arquivo fonte nao existe: " ++ route.source)
  else
    match ← readPage? route.source source with
    | none => return
    | some text =>
        writePage "Criado" route.target target (withoutFrontMatter text)

/-- Bring all plain pages into the site. -/
def updateSite : Session Unit :=
  intoSite.forM publishIntoSite

/-- Bring all pages of the site to their plain places. -/
def updatePlainPages : Session Unit :=
  fromSite.forM publishFromSite

end Flowgen.Docs
