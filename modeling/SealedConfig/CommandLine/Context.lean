import SealedConfig.CommandLine.Style
import SealedConfig.KeyStore.Store

/-!
# What commands share

The settings in effect, the form of answers, and the key store that the settings choose. A command that only reads never
makes a master key; one that protects makes it if there is none.
-/

namespace SealedConfig.CommandLine

/-- The settings, whether answers are trees, the format of wrapped keys, and how texts are painted. -/
structure Context where
  settings : Settings
  asJson : Bool
  cipher : FileCipher
  style : Style

namespace Context

variable {m : Type → Type} [Host m] (context : Context)

/-- The key store that the settings choose. -/
def store : Run m KeyStore := KeyStore.ofSettings context.cipher context.settings.keys

/-- The provider over the master key that there is. -/
def provider : Run m Provider := do (← context.store).provider context.settings.keys.application

/-- The protector of a purpose, from the master key that there is. -/
def protector (purpose : String) : Run m Protector := do return (← context.provider).protector purpose

/-- The protector of a purpose, from a master key that is made if there is none. -/
def protectorOrNew (purpose : String) : Run m Protector := do
  let provider ← (← context.store).providerOrNew context.settings.keys.application
  return provider.protector purpose

/-- The path of the document: the one given, or else that of the settings. -/
def documentPath (path : Option String) : String := path.getD context.settings.document.path

end Context

end SealedConfig.CommandLine
