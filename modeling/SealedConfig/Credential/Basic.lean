import SealedConfig.Envelope
import SealedConfig.Host.Fault
import SealedConfig.Settings.Basic
import SealedConfig.Text.LowerCase

/-!
# Signing credentials

The kinds of signing material, the names under which each is looked for, and where one was found.
-/

namespace SealedConfig

/-- A kind of signing material. -/
inductive CredentialKind where
  | privateKey
  | certificate
  | passphrase
  deriving DecidableEq, Repr, Inhabited

namespace CredentialKind

/-- Every kind, in the order of reports. -/
def all : List CredentialKind := [.privateKey, .certificate, .passphrase]

/-- The name of a kind on a command line. -/
def slug : CredentialKind → String
  | .privateKey => "private-key"
  | .certificate => "certificate"
  | .passphrase => "passphrase"

/-- The name of a kind in a sentence. -/
def display : CredentialKind → String
  | .privateKey => "private key"
  | .certificate => "certificate"
  | .passphrase => "passphrase"

/-- The name of a kind in diagnostics. -/
def shown : CredentialKind → String
  | .privateKey => "PrivateKey"
  | .certificate => "Certificate"
  | .passphrase => "Passphrase"

/-- The kind that a user names, in any case and with either dash. -/
def ofName? (name : String) : Option CredentialKind :=
  match (lowerCase name).map fun c => if c = '_' then '-' else c with
  | "private-key" => some .privateKey
  | "key" => some .privateKey
  | "certificate" => some .certificate
  | "cert" => some .certificate
  | "passphrase" => some .passphrase
  | _ => none

/-- The names under which a kind is looked for unless others are set. -/
def defaultProbes : CredentialKind → Probes
  | .privateKey =>
    ⟨some "SIGNING_PRIVATE_KEY", some "SIGNING_PRIVATE_KEY_FILE", some "Signing:PrivateKeyPath", none⟩
  | .certificate =>
    ⟨some "SIGNING_CERTIFICATE", some "SIGNING_CERTIFICATE_FILE", some "Signing:CertificatePath", none⟩
  | .passphrase =>
    ⟨some "SIGNING_PRIVATE_KEY_PASSPHRASE", some "SIGNING_PASSPHRASE_FILE", none, some "Signing:PrivateKeyPassphrase"⟩

end CredentialKind

/-- The names of probes, completed by those of others. -/
def Probes.orElse (probes others : Probes) : Probes :=
  ⟨probes.env.or others.env, probes.secretFileKey.or others.secretFileKey, probes.pathKey.or others.pathKey,
    probes.inlineKey.or others.inlineKey⟩

/-- The names set for a kind. -/
def CredentialSettings.overrides (settings : CredentialSettings) : CredentialKind → Probes
  | .privateKey => settings.privateKey
  | .certificate => settings.certificate
  | .passphrase => settings.passphrase

/-- The names in effect for a kind. -/
def CredentialSettings.probes (settings : CredentialSettings) (kind : CredentialKind) : Probes :=
  (settings.overrides kind).orElse kind.defaultProbes

/-- Where a credential was found. -/
inductive CredentialSource where
  | environment (name : String)
  | secretFile (path : String)
  | encryptedFile (path : String)
  | plainFile (path : String)
  | inline (key : String)
  deriving DecidableEq, Repr

namespace CredentialSource

/-- A source in a sentence. -/
def display : CredentialSource → String
  | .environment name => s!"environment variable {name}"
  | .secretFile path => s!"secret file {path}"
  | .encryptedFile path => s!"encrypted file {path}"
  | .plainFile path => s!"plain file {path}"
  | .inline key => s!"configuration key {key}"

/-- A source in diagnostics. -/
def shown : CredentialSource → String
  | .environment name => s!"Environment({quoted name})"
  | .secretFile path => s!"SecretFile({quotedPath path})"
  | .encryptedFile path => s!"EncryptedFile({quotedPath path})"
  | .plainFile path => s!"PlainFile({quotedPath path})"
  | .inline key => s!"Inline({quoted key})"

end CredentialSource

/-- Signing material, and where it was found. -/
structure Credential where
  kind : CredentialKind
  source : CredentialSource
  value : String
  deriving DecidableEq, Repr

/-- What a credential shows of itself. -/
def Credential.shown (credential : Credential) : String :=
  "Credential \x7b kind: " ++ credential.kind.shown ++ ", source: " ++ credential.source.shown ++ ", .. \x7d"

namespace Credential

/-- Why stored material does not open. -/
inductive OpenFault where
  | noMasterKey
  | envelope (fault : Envelope.Fault)
  deriving DecidableEq, Repr

/-- The wording of such a fault. -/
def OpenFault.message : OpenFault → String
  | .noMasterKey => "no master key available to decrypt"
  | .envelope fault => fault.message

/-- Why a credential or a key file cannot be had. -/
inductive Fault where
  | notFound (kind : CredentialKind) (tried : List String)
  | unreadable (what path : String) (fault : FileFault)
  | undecipherable (what location : String) (source : OpenFault)
  | unknownKind (name : String)
  deriving DecidableEq, Repr

/-- The wording of a fault. -/
def Fault.message : Fault → String
  | .notFound kind tried => kind.display ++ " not found (tried: " ++ ", ".intercalate tried ++ ")"
  | .unreadable what path fault => s!"failed to read {what} from {path}: {fault.message}"
  | .undecipherable what location source => s!"failed to decrypt {what} from {location}: {source.message}"
  | .unknownKind name => s!"unknown credential kind: {name} (expected private-key, certificate or passphrase)"

end Credential

/-- The kind that a text names. -/
def CredentialKind.ofText (text : String) : Except Credential.Fault CredentialKind :=
  match CredentialKind.ofName? text with
  | some kind => .ok kind
  | none => .error (.unknownKind text)

end SealedConfig
