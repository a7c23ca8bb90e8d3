import Flowgen.Value.Basic

namespace Flowgen

/-!
# Target languages

Code is generated for one of three languages, each known by a code.  A code
that belongs to none of them is still a language of its own, for which the
rules of a fallback hold.
-/

/-- A language that code can be generated for. -/
inductive Language where
  | php
  | python
  | javascript
  deriving DecidableEq, Repr

namespace Language

/-- All languages, in the order they are offered. -/
def all : List Language :=
  [.php, .python, .javascript]

/-- The code of a language. -/
def code : Language → String
  | .php => "php"
  | .python => "python"
  | .javascript => "javascript"

/-- The name of a language. -/
def name : Language → String
  | .php => "PHP"
  | .python => "Python"
  | .javascript => "JavaScript"

/-- What a language is called with its least version. -/
def version : Language → String
  | .php => "PHP 8.0+"
  | .python => "Python 3.8+"
  | .javascript => "Node.js 14+"

/-- The number under which a language is offered. -/
def option : Language → String
  | .php => "1"
  | .python => "2"
  | .javascript => "3"

/-- The extension of files in a language. -/
def extension : Language → String
  | .php => ".php"
  | .python => ".py"
  | .javascript => ".js"

/-- The language with a code. -/
def ofCode? (code : String) : Option Language :=
  all.find? fun language => language.code == code

/-- The language that is offered under a number. -/
def ofOption? (option : String) : Option Language :=
  all.find? fun language => language.option == option

/-- The language whose code a value is. -/
def ofValue? : Value → Option Language
  | .text content => ofCode? content
  | _ => none

/-- The extension for a code, or another one if the code is unknown. -/
def extensionOr (fallback code : String) : String :=
  match ofCode? code with
  | some language => language.extension
  | none => fallback

end Language

end Flowgen
