import SealedConfig.Bulk.Basic
import SealedConfig.Credential.Basic
import SealedConfig.KeyStore.Basic
import SealedConfig.ApiKey
import SealedConfig.Section.Bind
import SealedConfig.Settings.Decode

/-!
# Failures

All that can go wrong, by concern. A message tells paths, field names and operations and never a plain or an encrypted
value.
-/

namespace SealedConfig

/-- Why settings cannot be used. -/
inductive Settings.Fault where
  | unreadable (fault : FileFault)
  | malformed (fault : SettingsFault)
  | invalid (field reason : String)
  deriving DecidableEq, Repr

/-- The wording of such a fault. -/
def Settings.Fault.message : Settings.Fault → String
  | .unreadable fault => s!"failed to read settings: {fault.message}"
  | .malformed fault => s!"failed to parse settings: {fault.message}"
  | .invalid field reason => s!"invalid value for {field}: {reason}"

/-- The wording of a fault of an encrypted file. -/
def FileCipherFault.message : FileCipherFault → String
  | .head => "master key unwrap failed: the file does not open"
  | .content => "io error: decryption error"

/-- Anything that can go wrong. -/
inductive Failure where
  | envelope (fault : Envelope.Fault)
  | fileCipher (fault : FileCipherFault)
  | store (fault : KeyStore.Fault)
  | document (fault : Document.Fault)
  | bulk (fault : BulkFault)
  | credential (fault : Credential.Fault)
  | binding (fault : Section.Fault)
  | settings (fault : Settings.Fault)
  | file (fault : FileFault)
  | noTime
  | alreadyEncrypted (path : String)
  | credentialsMissing (missing total : Nat)
  | valuesUndecipherable (count : Nat)
  deriving DecidableEq, Repr

/-- The wording of a failure. -/
def Failure.message : Failure → String
  | .envelope fault => fault.message
  | .fileCipher fault => fault.message
  | .store fault => fault.message
  | .document fault => fault.message
  | .bulk fault => fault.message
  | .credential fault => fault.message
  | .binding fault => fault.message
  | .settings fault => fault.message
  | .file fault => s!"io error: {fault.message}"
  | .noTime => "the clock shows no date"
  | .alreadyEncrypted path => s!"{path} is already encrypted"
  | .credentialsMissing missing total => s!"{missing} of {total} credentials could not be loaded"
  | .valuesUndecipherable count => s!"{count} encrypted value{Report.plural count} failed to decrypt"

end SealedConfig
