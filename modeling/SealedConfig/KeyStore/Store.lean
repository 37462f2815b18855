import SealedConfig.Host.Files
import SealedConfig.KeyStore.Basic
import SealedConfig.Protector
import SealedConfig.Settings.Load

/-!
# Loading and making master keys

Loading unwraps the key file with the store's passphrase or identity; making a key replaces an existing one only when it
is forced to, and only when all that comes before the write has been done.
-/

namespace SealedConfig

variable {m : Type → Type} [Host m]

/-- The passphrase in an environment variable. -/
def KeyWrap.readPassphrase (name : String) : Run m String := do
  match ← Run.step (Host.nonEmptyEnv? name) with
  | some text => return text
  | none => Run.fail (.store (.missingPassphrase name))

/-- The identity in a file. -/
def KeyWrap.readIdentity (path : String) : Run m Age.Identity := do
  let text ← Run.attempt (fun fault => .store (.unreadable fault)) (Host.readText path)
  match Age.Identity.ofText? text with
  | some found => return found
  | none => Run.fail (.store (.invalidIdentity path))

/-- What a way of wrapping encrypts for; nothing when it leaves keys bare. -/
def KeyWrap.fileKey : KeyWrap → Run m (Option FileKey)
  | .bare => return none
  | .passphrase name => do return some (.passphrase (← KeyWrap.readPassphrase name))
  | .identity path => do return some (.identity (← KeyWrap.readIdentity path))

namespace KeyStore

/-- The store that settings choose. -/
def ofSettings (cipher : FileCipher) (keys : KeySettings) : Run m KeyStore := do
  let store ← match keys.protection with
    | .none => do pure (KeyStore.mk (← keys.keyDir) .bare cipher)
    | .passphrase => do pure (KeyStore.mk (← keys.keyDir) (.passphrase keys.passphraseVariable) cipher)
    | .identity =>
      match keys.identity with
      | some path => do pure (KeyStore.mk (← keys.keyDir) (.identity path) cipher)
      | none => Run.fail (.settings (.invalid "keys.identity" "required when protection = \"identity\""))
    | .keychain => Run.fail (.store (.unsupported .keychain))
  Run.debug "selected key store" [Log.inQuotes "store" store.name, Log.plain "location" store.location]
  return store

variable (store : KeyStore)

/-- Whether there is a key file. -/
def hasMaster : Run m Bool := Run.pathExists store.keyPath

/-- Warns of a key file that others than its owner may use. -/
def checkPermissions : Run m Unit := do
  match ← Run.step (Host.stat store.keyPath) with
  | some ⟨_, some mode⟩ =>
    if mode % 512 ≠ FileTree.privateMode then
      Run.warn "insecure master key permissions"
        [Log.plain "path" store.keyPath, Log.plain "mode" (String.ofList (Nat.toDigits 8 (mode % 512)))]
  | _ => return ()

/-- The master key in the content of a key file. -/
def unwrap (content : String) : Run m MasterKey := do
  let found ← Run.settle .fileCipher (detect store.cipher content)
  if found ≠ store.wrap.protection then
    Run.fail (.store (.wrapMismatch store.keyPath store.wrap.protection found))
  else
    match ← store.wrap.fileKey with
    | none => Run.settle (fun fault => .store (.malformed fault)) (MasterKey.ofBase64 content)
    | some key =>
      let bytes ← Run.settle .fileCipher (store.cipher.decrypt key content)
      Run.settle (fun fault => .store (.malformed fault)) (MasterKey.ofTextBytes bytes)

/-- The content of the key file of a master key. -/
def wrapped (key : MasterKey) : Run m String := do
  match ← store.wrap.fileKey with
  | none => return key.toBase64 ++ "\n"
  | some fileKey =>
    let random ← Run.random (store.cipher.randomSize fileKey)
    return store.cipher.encrypt fileKey random.toList (Bytes.ofText key.toBase64)

/-- The master key of the store. -/
def loadMaster : Run m MasterKey := do
  Run.debug "loading master key" [Log.plain "path" store.keyPath, Log.inQuotes "wrap" store.name]
  if ← store.hasMaster then
    store.checkPermissions
    let content ← Run.attempt (fun fault => .store (.unreadable fault)) (Host.readText store.keyPath)
    let key ← store.unwrap content
    Run.debug "master key loaded" []
    return key
  else Run.fail (.store (.noMasterKey store.location))

/-- A new master key, kept in the store; an existing one is replaced only by force. -/
def createMaster (force : Bool) : Run m MasterKey := do
  if (← store.hasMaster) && !force then Run.fail (.store (.alreadyExists store.location))
  else
    if store.wrap = .bare then
      Run.warn "master key stored without wrapping" [Log.plain "path" store.keyPath]
    let key := MasterKey.mk (← Run.random 32)
    let content ← store.wrapped key
    Run.attempt (fun fault => .store (.unwritable fault)) (Host.createDirectories store.dir)
    Run.attempt (fun fault => .store (.unwritable fault)) (Host.writePrivate store.keyPath (Bytes.ofText content))
    Run.debug "master key saved" [Log.plain "path" store.keyPath, Log.inQuotes "wrap" store.name]
    return key

/-- The provider of an application over the master key of the store. -/
def provider (application : String) : Run m Provider := do return ⟨← store.loadMaster, application⟩

/-- The provider of an application over the master key of the store, which is made if there is none. -/
def providerOrNew (application : String) : Run m Provider := do
  if ← store.hasMaster then store.provider application
  else
    Run.inform "generating master key" [Log.inQuotes "store" store.name, Log.plain "location" store.location]
    return ⟨← store.createMaster false, application⟩

end KeyStore

end SealedConfig
