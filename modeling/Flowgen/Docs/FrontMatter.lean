import Flowgen.Text.Blank
import Flowgen.Text.Lines

namespace Flowgen.Docs

/-!
# Front matter

A page may open with front matter: the lines from its first rule to its second
one.  A rule is a line that is `---` apart from white space.  Rules after the
second belong to neither part and are dropped.
-/

/-- Whether a line is a rule. -/
def isRule (line : String) : Bool :=
  Text.trim line == "---"

/--
Where a line stands: before the first rule, after it, or after the second one.
-/
inductive Region where
  | before
  | inside
  | after
  deriving DecidableEq, Repr

/-- The lines of the front matter and those of the body. -/
structure Page where
  frontMatter : List String
  body : List String
  deriving DecidableEq, Repr

namespace Page

/-- Put a line in front of the front matter. -/
def addFrontMatter (line : String) (page : Page) : Page :=
  { page with frontMatter := line :: page.frontMatter }

/-- Put a line in front of the body. -/
def addBody (line : String) (page : Page) : Page :=
  { page with body := line :: page.body }

/-- Divide lines, of which the first stands in the given region. -/
def divide : Region → List String → Page
  | _, [] => ⟨[], []⟩
  | .before, line :: lines =>
      if isRule line then
        addFrontMatter line (divide .inside lines)
      else
        addBody line (divide .before lines)
  | .inside, line :: lines =>
      if isRule line then
        addFrontMatter line (divide .after lines)
      else
        addFrontMatter line (divide .inside lines)
  | .after, line :: lines =>
      if isRule line then
        divide .after lines
      else
        addBody line (divide .after lines)

/-- The page that a text holds. -/
def ofText (text : String) : Page :=
  divide .before (Text.lines text)

/-- The text of the front matter, rules included. -/
def frontMatterText (page : Page) : String :=
  Text.ofLines page.frontMatter

/-- The text of the body without the white space around it. -/
def bodyText (page : Page) : String :=
  Text.trim (Text.ofLines page.body)

end Page

/-- The lines outside front matter, when `rules` rules stand before them. -/
def linesOutside (rules : Nat) : List String → List String
  | [] => []
  | line :: lines =>
      if isRule line then
        linesOutside (rules + 1) lines
      else if rules = 1 then
        linesOutside rules lines
      else
        line :: linesOutside rules lines

/--
A text without its front matter and without the white space around the rest.
-/
def withoutFrontMatter (text : String) : String :=
  Text.trim (Text.ofLines (linesOutside 0 (Text.lines text)))

/-- A text under the front matter of a page, if it has any. -/
def underFrontMatter (page : Page) (text : String) : String :=
  if page.frontMatterText = "" then
    text
  else
    page.frontMatterText ++ "\n\n" ++ text

end Flowgen.Docs
