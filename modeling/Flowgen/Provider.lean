import Flowgen.Text.Case

namespace Flowgen

/-!
# Providers

The services that an agent node can talk to.  A provider is recognised by its
name, and every name that is not recognised stands for the first one.
-/

/-- A service that answers prompts. -/
inductive Provider where
  | openAI
  | anthropic
  | openRouter
  deriving DecidableEq, Repr

namespace Provider

/-- The provider with a name; case does not matter. -/
def ofName (name : String) : Provider :=
  let lowered := Text.lower name
  if Text.contains lowered "anthropic" || Text.contains lowered "claude" then
    .anthropic
  else if Text.contains lowered "openrouter" then
    .openRouter
  else
    .openAI

/-- The class that holds the credentials for a provider. -/
def credentialClass : Provider → String
  | .openAI => "OpenAICredentials"
  | .anthropic => "AnthropicCredentials"
  | .openRouter => "OpenRouterCredentials"

/-- The environment variable that holds the key for a provider. -/
def keyVariable : Provider → String
  | .openAI => "OPENAI_API_KEY"
  | .anthropic => "ANTHROPIC_API_KEY"
  | .openRouter => "OPENROUTER_API_KEY"

/-- The address of a provider. -/
def address : Provider → String
  | .openAI => "https://api.openai.com/v1/chat/completions"
  | .anthropic => "https://api.anthropic.com/v1/messages"
  | .openRouter => "https://openrouter.ai/api/v1/chat/completions"

/-- All providers, in the order of the names of their credential classes. -/
def byClass : List Provider :=
  [.anthropic, .openAI, .openRouter]

end Provider

end Flowgen
