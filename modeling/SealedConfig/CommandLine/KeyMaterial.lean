import SealedConfig.CommandLine.Context
import SealedConfig.Credential.KeyFile

/-!
# Commands on key material

Making the master key, with an identity to wrap it for if one is named that is not there yet, and sealing and opening
key files.
-/

namespace SealedConfig.CommandLine

variable {m : Type → Type} [Host m]

/-- The text of an identity file. -/
def identityText (moment : Moment) (identity : Age.Identity) : String :=
  s!"# created: {moment.timestamp}\n# public key: {identity.publicWord}\n{identity.secretWord}\n"

/-- Writes a new identity to a file for its owner only. -/
def generateIdentity (path : String) : Run m Unit := do
  let identity := Age.Identity.mk (← Run.random 32)
  let text := identityText (← Run.now) identity
  match (FilePath.parent? path).filter (· ≠ "") with
  | some above => Run.attempt (fun fault => .store (.unwritable fault)) (Host.createDirectories above)
  | none => pure ()
  Run.attempt (fun fault => .store (.unwritable fault)) (Host.writePrivate path (Bytes.ofText text))
  Run.inform "generated age identity" [Log.plain "path" path]

/-- The key settings with the choices of a command line; an identity alone asks for identity protection. -/
def chosen (keys : KeySettings) (protection : Option Protection) (identity : Option String) : KeySettings :=
  match protection, identity with
  | none, none => keys
  | none, some path => { keys with protection := .identity, identity := some path }
  | some protection, none => { keys with protection := protection }
  | some protection, some path => { keys with protection := protection, identity := some path }

namespace Context

variable (context : Context)

/-- Writes the identity that the keys are to be wrapped for, unless it is there. -/
def provideIdentity (keys : KeySettings) : Run m Unit := do
  if keys.protection = .identity then
    match keys.identity with
    | some path =>
      if !(← Run.pathExists path) then
        generateIdentity path
        context.style.success s!"generated identity {context.style.named path}"
    | none => pure ()

/-- Makes the master key in the store that the settings and the command line choose. -/
def init (protection : Option Protection) (identity : Option String) (force : Bool) : Run m Unit := do
  let keys := chosen context.settings.keys protection identity
  let context := { context with settings := { context.settings with keys := keys } }
  Run.settle .settings context.settings.validate
  context.provideIdentity keys
  let store ← context.store
  Run.inform "creating master key" [Log.inQuotes "store" store.name, Log.plain "location" store.location]
  discard (store.createMaster force)
  if context.asJson then
    printJson (.object [("protection", .string keys.protection.name), ("location", .string store.location)])
  else
    let style := context.style
    style.success s!"created master key ({keys.protection.name}) in {style.named store.location}"
    if keys.protection = .none then
      style.warning "master key is stored unwrapped, use --protection for production"

/-- Seals a plain key file. -/
def encryptKeyFile (input output : String) : Run m Unit := do
  let style := context.style
  let p ← context.protectorOrNew Protector.keyFiles
  KeyFile.encrypt p input output
  style.success s!"encrypted {style.named input} to {style.named output}"
  if !context.settings.credentials.encryptKeyFiles then
    style.hint "set credentials.encrypt_key_files = true so it is read encrypted"

/-- Opens a sealed key file. -/
def decryptKeyFile (input output : String) : Run m Unit := do
  let style := context.style
  let p ← context.protector Protector.keyFiles
  KeyFile.decrypt p input output
  style.success s!"decrypted {style.named input} to {style.named output}"
  style.warning "the output holds plaintext key material"

end Context

end SealedConfig.CommandLine
