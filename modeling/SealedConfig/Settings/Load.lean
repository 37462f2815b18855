import SealedConfig.Run
import SealedConfig.Text.Blank

/-!
# Settings in files

A settings file that is named has to be there; the default one is read if it is. Read settings are checked for what no
single field tells.
-/

namespace SealedConfig

variable {m : Type → Type} [Host m]

/-- The protection that a text names. -/
def Protection.ofText (text : String) : Except Settings.Fault Protection :=
  match Protection.ofName? text with
  | some protection => .ok protection
  | _ =>
    .error (.invalid "keys.protection"
      s!"unknown protection '{text}' (expected none, passphrase, identity or keychain)")

/-- Checks that settings fit together: the first that does not is told. -/
def Settings.validate (settings : Settings) : Except Settings.Fault Unit :=
  if trim settings.keys.application = "" then .error (.invalid "keys.application" "must not be empty")
  else if settings.keys.protection = .identity ∧ settings.keys.identity = none then
    .error (.invalid "keys.identity" "required when protection = \"identity\"")
  else if settings.keys.protection = .passphrase ∧ settings.keys.passphraseVariable = "" then
    .error (.invalid "keys.passphrase_env" "must name an environment variable")
  else .ok ()

/-- The settings of a text. -/
def Settings.ofText (text : String) : Except Settings.Fault Settings := (Settings.parse text).mapError .malformed

/-- The settings in a file that has to be there. -/
def Settings.loadFile (path : String) : Run m Settings := do
  Run.debug "loading settings" [Log.plain "path" path]
  let text ← Run.attempt (fun fault => .settings (.unreadable fault)) (Host.readText path)
  let settings ← Run.settle .settings (Settings.ofText text)
  Run.settle .settings settings.validate
  return settings

/-- The settings in a file, or those of the default one if there is one. -/
def Settings.load : Option String → Run m Settings
  | some path => Settings.loadFile path
  | none => do
    if ← Run.pathExists Settings.defaultFile then Settings.loadFile Settings.defaultFile
    else
      Run.debug "no settings file, using defaults" [Log.plain "path" Settings.defaultFile]
      return {}

/-- Where keys are kept below the home directory. -/
def KeySettings.homeDir : String := ".strongbox/keys"

/-- The directory of the keys. -/
def KeySettings.keyDir (keys : KeySettings) : Run m String := do
  match keys.dir with
  | some dir => return dir
  | none =>
    match ← Run.step Host.home? with
    | some home => return FilePath.join home KeySettings.homeDir
    | none => Run.fail (.store .noHome)

end SealedConfig
