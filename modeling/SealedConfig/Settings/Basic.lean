/-!
# Settings

What a user can choose: where the master key is kept and how it is protected, which document is worked on, and how
signing credentials are looked for.
-/

namespace SealedConfig

/-- How the master key is protected at rest. -/
inductive Protection where
  | none
  | passphrase
  | identity
  | keychain
  deriving DecidableEq, Repr, Inhabited

/-- The name of a protection in settings and messages. -/
def Protection.name : Protection → String
  | .none => "none"
  | .passphrase => "passphrase"
  | .identity => "identity"
  | .keychain => "keychain"

/-- Every protection, in the order of its listing. -/
def Protection.all : List Protection := [.none, .passphrase, .identity, .keychain]

/-- The protection of a name. -/
def Protection.ofName? (name : String) : Option Protection := Protection.all.find? fun p => p.name == name

/-- Where the master key is kept and how it is protected. -/
structure KeySettings where
  dir : Option String := none
  application : String := "strongbox"
  protection : Protection := .none
  identity : Option String := none
  passphraseVariable : String := "STRONGBOX_KEY_PASSPHRASE"
  deriving DecidableEq, Repr, Inhabited

/-- The document worked on when none is named. -/
structure DocumentSettings where
  path : String := "appsettings.json"
  deriving DecidableEq, Repr, Inhabited

/-- The names under which something is looked for: an environment variable, and configuration keys that hold the path of
a secret file, the path of a key file, or a value. -/
structure Probes where
  env : Option String := none
  secretFileKey : Option String := none
  pathKey : Option String := none
  inlineKey : Option String := none
  deriving DecidableEq, Repr, Inhabited

/-- How signing credentials are looked for and for how many seconds they are kept. -/
structure CredentialSettings where
  encryptKeyFiles : Bool := false
  cacheSeconds : Nat := 900
  privateKey : Probes := {}
  certificate : Probes := {}
  passphrase : Probes := {}
  deriving DecidableEq, Repr, Inhabited

/-- All settings. -/
structure Settings where
  keys : KeySettings := {}
  document : DocumentSettings := {}
  credentials : CredentialSettings := {}
  deriving DecidableEq, Repr, Inhabited

/-- The file that settings are read from when none is named. -/
def Settings.defaultFile : String := "strongbox.toml"

/-- The settings with another key directory, if one is given. -/
def Settings.withKeyDir (settings : Settings) : Option String → Settings
  | some dir => { settings with keys := { settings.keys with dir := some dir } }
  | none => settings

end SealedConfig
