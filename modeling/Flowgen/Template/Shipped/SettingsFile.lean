import Flowgen.Text.Lines

namespace Flowgen.Template.Shipped

/-!
# Settings

The settings that come with the program.
-/

/-- The settings file. -/
def settings : String :=
  Text.ofLines
    ["\x7b",
     "  \"n8n\": \x7b",
     "    \"url\": \"$\x7bN8N_URL\x7d\",",
     "    \"api_key\": \"$\x7bN8N_API_KEY\x7d\"",
     "  \x7d,",
     "  \"output\": \x7b",
     "    \"path\": \"output\",",
     "    \"language\": \"php\"",
     "  \x7d",
     "\x7d",
     "",
     ""]

end Flowgen.Template.Shipped
