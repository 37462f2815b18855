import SealedConfig.Settings.Basic
import SealedConfig.Text.Quoted
import SealedConfig.Toml.Parser

/-!
# Settings from text

A settings text is a tree of tables whose fields are all optional; a field that is not known is refused. A table may
also be given as a list of its fields in order. The first fault in the order of the text is reported.
-/

namespace SealedConfig

/-- Why a text spells no settings. -/
inductive SettingsFault where
  | malformed
  | unknownField (name : String) (expected : List String)
  | unknownVariant (name : String) (expected : List String)
  | invalidType (found expected : String)
  | invalidValue (found expected : String)
  | unsupportedShape
  deriving DecidableEq, Repr

namespace SettingsFault

/-- A name between back quotes. -/
def named (name : String) : String := "`" ++ name ++ "`"

/-- The names that would have been known. -/
def alternatives : List String → String
  | [] => "there are no fields"
  | [a] => s!"expected {named a}"
  | [a, b] => s!"expected {named a} or {named b}"
  | names => "expected one of " ++ ", ".intercalate (names.map named)

/-- The wording of a fault. -/
def message : SettingsFault → String
  | .malformed => "malformed text"
  | .unknownField name expected => s!"unknown field {named name}, {alternatives expected}"
  | .unknownVariant name expected => s!"unknown variant {named name}, {alternatives expected}"
  | .invalidType found expected => s!"invalid type: {found}, expected {expected}"
  | .invalidValue found expected => s!"invalid value: {found}, expected {expected}"
  | .unsupportedShape => "unsupported value"

end SettingsFault

namespace Toml

/-- A value as faults speak of it. -/
def describe : Toml → String
  | .string value => s!"string {quoted value}"
  | .integer value => "integer " ++ SettingsFault.named (toString value)
  | .float shown => "floating point " ++ SettingsFault.named shown
  | .boolean value => "boolean " ++ SettingsFault.named (toString value)
  | .moment => "map"
  | .array _ => "sequence"
  | .table _ => "map"

/-- The name of the only field that a date or time offers. -/
def momentField : String := "$__toml_private_datetime"

/-- A text. -/
def asString (expected : String) : Toml → Except SettingsFault String
  | .string value => .ok value
  | value => .error (.invalidType value.describe expected)

/-- A truth value. -/
def asBool : Toml → Except SettingsFault Bool
  | .boolean value => .ok value
  | value => .error (.invalidType value.describe "a boolean")

/-- A whole number that is not negative. -/
def asCount : Toml → Except SettingsFault Nat
  | .integer value =>
    if 0 ≤ value then .ok value.toNat else .error (.invalidValue (Toml.integer value).describe "u64")
  | value => .error (.invalidType value.describe "u64")

/-- A protection: its name, or a table that has it as the only field with nothing in it. -/
def asProtection : Toml → Except SettingsFault Protection
  | .string name => ofName name
  | .table [(name, content)] => do
    let protection ← ofName name
    match content with
    | .table [] => .ok protection
    | .array [] => .ok protection
    | _ => .error .unsupportedShape
  | _ => .error .unsupportedShape
where
  /-- The protection of a name. -/
  ofName (name : String) : Except SettingsFault Protection :=
    match Protection.ofName? name with
    | some protection => .ok protection
    | none => .error (.unknownVariant name (Protection.all.map Protection.name))

/-- A record: a table whose every field is known, or a list of the fields in order. -/
def asRecord {α : Type} (typeName : String) (fields : List String) (start : α)
    (set : α → String → Toml → Except SettingsFault α) : Toml → Except SettingsFault α
  | .table entries =>
    entries.foldlM (fun record (name, value) =>
      if name ∈ fields then set record name value else .error (.unknownField name fields)) start
  | .array items => (fields.zip items).foldlM (fun record (name, value) => set record name value) start
  | .moment => .error (.unknownField momentField fields)
  | value => .error (.invalidType value.describe s!"struct {typeName}")

end Toml

/-- The key settings of a value. -/
def KeySettings.decode : Toml → Except SettingsFault KeySettings :=
  Toml.asRecord "KeySettings" ["dir", "application", "protection", "identity", "passphrase_env"] {}
    fun keys name value =>
      match name with
      | "dir" => do return { keys with dir := some (← value.asString "path string") }
      | "application" => do return { keys with application := ← value.asString "a string" }
      | "protection" => do return { keys with protection := ← value.asProtection }
      | "identity" => do return { keys with identity := some (← value.asString "path string") }
      | _ => do return { keys with passphraseVariable := ← value.asString "a string" }

/-- The document settings of a value. -/
def DocumentSettings.decode : Toml → Except SettingsFault DocumentSettings :=
  Toml.asRecord "DocumentSettings" ["path"] {} fun _ _ value => do return { path := ← value.asString "path string" }

/-- The probe names of a value. -/
def Probes.decode : Toml → Except SettingsFault Probes :=
  Toml.asRecord "ProbeOverrides" ["env", "secret_file_key", "path_key", "inline_key"] {}
    fun probes name value => do
      let text ← value.asString "a string"
      match name with
      | "env" => return { probes with env := some text }
      | "secret_file_key" => return { probes with secretFileKey := some text }
      | "path_key" => return { probes with pathKey := some text }
      | _ => return { probes with inlineKey := some text }

/-- The credential settings of a value. -/
def CredentialSettings.decode : Toml → Except SettingsFault CredentialSettings :=
  Toml.asRecord "CredentialSettings"
    ["encrypt_key_files", "cache_ttl_secs", "private_key", "certificate", "passphrase"] {}
    fun credentials name value =>
      match name with
      | "encrypt_key_files" => do return { credentials with encryptKeyFiles := ← value.asBool }
      | "cache_ttl_secs" => do return { credentials with cacheSeconds := ← value.asCount }
      | "private_key" => do return { credentials with privateKey := ← Probes.decode value }
      | "certificate" => do return { credentials with certificate := ← Probes.decode value }
      | _ => do return { credentials with passphrase := ← Probes.decode value }

/-- The settings of a value. -/
def Settings.decode : Toml → Except SettingsFault Settings :=
  Toml.asRecord "Settings" ["keys", "document", "credentials"] {} fun settings name value =>
    match name with
    | "keys" => do return { settings with keys := ← KeySettings.decode value }
    | "document" => do return { settings with document := ← DocumentSettings.decode value }
    | _ => do return { settings with credentials := ← CredentialSettings.decode value }

/-- The settings that a text spells. -/
def Settings.parse (text : String) : Except SettingsFault Settings :=
  match Toml.parse? text with
  | some entries => Settings.decode (.table entries)
  | none => .error .malformed

end SealedConfig
