import Flowgen.Provider
import Flowgen.Session

namespace Flowgen

/-!
# Credentials

The key for a provider: the one that was given, or else the one in the
environment.
-/

/-- The credentials for one provider, with the key that was given. -/
structure Credential where
  provider : Provider
  key : Value
  deriving Repr

namespace Credential

/--
The provider whose credentials have a class name; the general class has none.
-/
def provider? (className : String) : Option Provider :=
  Provider.byClass.find? fun provider => provider.credentialClass == className

/-- Credentials of a class with the key that was given, if one was. -/
def make (className : String) (key : Option Value) : Except Fault Credential :=
  match provider? className with
  | some provider => .ok ⟨provider, key.getD .null⟩
  | none => .error (if key.isSome then .unexpectedKey else .abstractCredential)

/-- The key of credentials of no particular provider. -/
def generalKey (_credential : Credential) : Value :=
  .null

/-- The key of credentials. -/
def apiKey (credential : Credential) : Session Value := do
  if credential.key.isTruthy then
    return credential.key
  else
    return .text (← Session.environmentVariable credential.provider.keyVariable)

end Credential

end Flowgen
