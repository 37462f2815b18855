import SealedConfig.Json.Basic
import SealedConfig.Settings.Decode

/-!
# Settings as JSON trees

The form in which settings are shown and passed on: every field under its name, null for one that is not set. Reading it
follows the rules for settings texts; a field that may be absent may also be null.
-/

namespace SealedConfig

namespace Settings.Form

/-- The names of the fields of key settings. -/
def keyFields : List String := ["dir", "application", "protection", "identity", "passphrase_env"]

/-- The names of the fields of probes. -/
def probeFields : List String := ["env", "secret_file_key", "path_key", "inline_key"]

/-- The fields of credential settings that hold the probes of a kind. -/
def kindFields : List String := ["private_key", "certificate", "passphrase"]

/-- The names of the fields of credential settings. -/
def credentialFields : List String := ["encrypt_key_files", "cache_ttl_secs"] ++ kindFields

/-- The fields that may be null. -/
def nullable : List String := ["dir", "identity"] ++ probeFields

/-- The settings value of a tree; what no setting takes becomes a date. -/
def value : Json → Toml
  | .string s => .string s
  | .bool b => .boolean b
  | .number (.integer n) => .integer n
  | .number (.decimal spelling) => .float spelling
  | _ => .moment

/-- The entries of a table, those that are null left out where they may be. -/
def entries (nested : String → Json → Toml) : List (String × Json) → List (String × Toml)
  | [] => []
  | (name, .null) :: rest => if name ∈ nullable then entries nested rest else (name, .moment) :: entries nested rest
  | (name, field) :: rest => (name, nested name field) :: entries nested rest

/-- A table of settings, its fields given by name or in order. -/
def table (fields : List String) (nested : String → Json → Toml) : Json → Toml
  | .object members => .table (entries nested members)
  | .array items => if fields.length < items.length then .moment else .table (entries nested (fields.zip items))
  | _ => .moment

/-- A field of key settings; a protection may be an object that has its name as the only key, with null under it. -/
def keyValue : String → Json → Toml
  | "protection", .object [(name, .null)] => .table [(name, .table [])]
  | _, field => value field

/-- A field of credential settings. -/
def credentialValue (name : String) (field : Json) : Toml :=
  if name ∈ kindFields then table probeFields (fun _ => value) field else value field

end Settings.Form

open Settings.Form

/-- The key settings of a tree. -/
def KeySettings.ofJson (tree : Json) : Except SettingsFault KeySettings :=
  KeySettings.decode (table keyFields keyValue tree)

/-- The probe names of a tree. -/
def Probes.ofJson (tree : Json) : Except SettingsFault Probes := Probes.decode (table probeFields (fun _ => value) tree)

/-- The credential settings of a tree. -/
def CredentialSettings.ofJson (tree : Json) : Except SettingsFault CredentialSettings :=
  CredentialSettings.decode (table credentialFields credentialValue tree)

/-- A text that may be absent. -/
def Settings.Form.optional (text : Option String) : Json := text.elim .null .string

/-- The form of probe names. -/
def Probes.toJson (probes : Probes) : Json :=
  .object [("env", optional probes.env), ("secret_file_key", optional probes.secretFileKey),
    ("path_key", optional probes.pathKey), ("inline_key", optional probes.inlineKey)]

/-- The form of key settings. -/
def KeySettings.toJson (keys : KeySettings) : Json :=
  .object [("dir", optional keys.dir), ("application", .string keys.application),
    ("protection", .string keys.protection.name), ("identity", optional keys.identity),
    ("passphrase_env", .string keys.passphraseVariable)]

/-- The form of credential settings. -/
def CredentialSettings.toJson (credentials : CredentialSettings) : Json :=
  .object [("encrypt_key_files", .bool credentials.encryptKeyFiles),
    ("cache_ttl_secs", .number (.integer credentials.cacheSeconds)), ("private_key", credentials.privateKey.toJson),
    ("certificate", credentials.certificate.toJson), ("passphrase", credentials.passphrase.toJson)]

/-- The form of all settings. -/
def Settings.toJson (settings : Settings) : Json :=
  .object [("keys", settings.keys.toJson), ("document", .object [("path", .string settings.document.path)]),
    ("credentials", settings.credentials.toJson)]

end SealedConfig
