import Flowgen.Text.Lines

namespace Flowgen.Template.Shipped

/-!
# Template documents

A template is a small document around lines of code, which stand in a section of
their own so that nothing in them counts as markup.
-/

/-- The document of a class template. -/
def classDocument (code : List String) : String :=
  Text.ofLines
    (["<language>", "    <class>", "        <![CDATA["] ++ code
      ++ ["        ]]>", "    </class>", "</language>", ""])

/-- The document of a method template, with its name and some empty lines at the end. -/
def methodDocument (name : String) (code : List String) (emptyLines : Nat) : String :=
  Text.ofLines
    (["<node>", "    <name>" ++ name ++ "</name>", "    <method>", "        <![CDATA["] ++ code
      ++ ["        ]]>", "    </method>", "</node>"] ++ List.replicate emptyLines "")

end Flowgen.Template.Shipped
