import Flowgen.Files.Tree
import Flowgen.Template.Shipped.ClassTemplates
import Flowgen.Template.Shipped.CredentialFiles
import Flowgen.Template.Shipped.JavascriptNodeTemplates
import Flowgen.Template.Shipped.PhpNodeTemplates
import Flowgen.Template.Shipped.PythonNodeTemplates
import Flowgen.Template.Shipped.SettingsFile

namespace Flowgen.Template

/-!
# The files that come with the program

The template directory and the settings, as they are installed.
-/

/-- The files of the template directory. -/
def shippedFiles : List (List String × String) :=
  [(["templates", "languages", "php.xml"], Shipped.phpClass),
   (["templates", "languages", "python.xml"], Shipped.pythonClass),
   (["templates", "languages", "javascript.xml"], Shipped.javascriptClass),
   (["templates", "nodes", "function.xml"], Shipped.phpFunction),
   (["templates", "nodes", "httpRequest.xml"], Shipped.phpHttpRequest),
   (["templates", "nodes", "if.xml"], Shipped.phpIf),
   (["templates", "nodes", "set.xml"], Shipped.phpSet),
   (["templates", "nodes", "aiAgent.xml"], Shipped.phpAgent),
   (["templates", "nodes", "python", "function.xml"], Shipped.pythonFunction),
   (["templates", "nodes", "python", "httpRequest.xml"],
     Shipped.pythonHttpRequest),
   (["templates", "nodes", "python", "if.xml"], Shipped.pythonIf),
   (["templates", "nodes", "python", "set.xml"], Shipped.pythonSet),
   (["templates", "nodes", "python", "aiAgent.xml"], Shipped.pythonAgent),
   (["templates", "nodes", "javascript", "function.xml"],
     Shipped.javascriptFunction),
   (["templates", "nodes", "javascript", "httpRequest.xml"],
     Shipped.javascriptHttpRequest),
   (["templates", "nodes", "javascript", "if.xml"], Shipped.javascriptIf),
   (["templates", "nodes", "javascript", "set.xml"], Shipped.javascriptSet),
   (["templates", "nodes", "javascript", "aiAgent.xml"],
     Shipped.javascriptAgent),
   (["templates", "credentials", "Credentials.php"], Shipped.phpCredentials),
   (["templates", "credentials", "Credentials.py"], Shipped.pythonCredentials),
   (["templates", "credentials", "Credentials.js"],
     Shipped.javascriptCredentials)]

/-- A tree with the template directory in it. -/
def install (tree : FileTree) : FileTree :=
  shippedFiles.foldl (fun tree file => tree.withFile file.1 (.text file.2)) tree

/-- A tree with the settings in it. -/
def installSettings (tree : FileTree) : FileTree :=
  tree.withFile ["config", "settings.json"] (.text Shipped.settings)

end Flowgen.Template
