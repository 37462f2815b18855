import SealedConfig.Host.Fault
import SealedConfig.Host.Path
import SealedConfig.KeyStore.FileCipher
import SealedConfig.MasterKey
import SealedConfig.Settings.Basic

/-!
# Key stores

A key store is a directory with one key file. The file holds the text form of the master key, bare or wrapped for a
passphrase or a key pair; a store reads only files that are wrapped as it wraps.
-/

namespace SealedConfig

/-- How a key file is wrapped. -/
inductive KeyWrap where
  | bare
  | passphrase (name : String)
  | identity (path : String)
  deriving DecidableEq, Repr

/-- The protection that a way of wrapping gives. -/
def KeyWrap.protection : KeyWrap → Protection
  | .bare => .none
  | .passphrase _ => .passphrase
  | .identity _ => .identity

/-- A directory, how its key file is wrapped, and the format that wraps it. -/
structure KeyStore where
  dir : String
  wrap : KeyWrap
  cipher : FileCipher

namespace KeyStore

/-- Why a master key cannot be loaded or made. -/
inductive Fault where
  | noMasterKey (location : String)
  | alreadyExists (location : String)
  | malformed (fault : MasterKey.Fault)
  | wrapMismatch (path : String) (expected found : Protection)
  | missingPassphrase (name : String)
  | invalidIdentity (path : String)
  | unreadable (fault : FileFault)
  | unwritable (fault : FileFault)
  | noHome
  | unsupported (protection : Protection)
  deriving DecidableEq, Repr

/-- The wording of a fault. -/
def Fault.message : Fault → String
  | .noMasterKey location => s!"no master key found in {location}"
  | .alreadyExists location => s!"master key already exists in {location} (use --force to replace)"
  | .malformed fault => s!"invalid master key format: {fault.message}"
  | .wrapMismatch path expected found =>
    s!"master key in {path} is wrapped with '{found.name}', but '{expected.name}' is configured"
  | .missingPassphrase name => s!"passphrase variable {name} is not set"
  | .invalidIdentity path => s!"invalid age identity in {path}"
  | .unreadable fault => s!"failed to read master key: {fault.message}"
  | .unwritable fault => s!"failed to write master key: {fault.message}"
  | .noHome => "unable to determine home directory"
  | .unsupported protection => s!"key protection '{protection.name}' is not available on this platform"

/-- The name of the key file. -/
def fileName : String := "master.key"

/-- The path of the key file. -/
def keyPath (store : KeyStore) : String := FilePath.join store.dir fileName

/-- The name of the store's way of wrapping. -/
def name (store : KeyStore) : String := store.wrap.protection.name

/-- Where the store is. -/
def location (store : KeyStore) : String := store.dir

/-- How a key file is wrapped, as its content tells. -/
def detect (cipher : FileCipher) (content : String) : Except FileCipherFault Protection :=
  if cipher.isEncrypted content then
    (cipher.needsPassphrase content).map fun needed => if needed then .passphrase else .identity
  else .ok .none

end KeyStore

end SealedConfig
