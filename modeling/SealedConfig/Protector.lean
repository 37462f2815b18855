import SealedConfig.Crypto.Gcm
import SealedConfig.Crypto.Sha256
import SealedConfig.MasterKey
import SealedConfig.Text.Quoted

/-!
# Protectors

Authenticated encryption of single values. Every use of a master key has a purpose, and the key of a purpose is derived
from the master key, the application and the purpose, which is also authenticated with each value: what one purpose
protected opens under no other. A protected text is the bare URL-safe base 64 of nonce, ciphertext and tag.
-/

namespace SealedConfig

/-- Twelve bytes that are used once. -/
abbrev Nonce := Vector UInt8 12

/-- A master key and the application whose protectors are derived from it. -/
structure Provider where
  master : MasterKey
  application : String
  deriving DecidableEq

/-- A purpose and the key derived for it. -/
structure Protector where
  purpose : String
  key : Bytes
  deriving DecidableEq

/-- The purpose of values inside documents. -/
def Protector.configSecrets : String := "config.secrets"

/-- The purpose of key files. -/
def Protector.keyFiles : String := "credentials.key-files"

/-- Why a protected text does not open. -/
inductive Protector.Reason where
  | notBase64
  | truncated
  | unauthentic
  | notText
  deriving DecidableEq, Repr

/-- The wording of a reason. -/
def Protector.Reason.message : Protector.Reason → String
  | .notBase64 => "ciphertext is not valid base64"
  | .truncated => "ciphertext is truncated"
  | .unauthentic => "authentication failed (wrong key or purpose, or corrupted data)"
  | .notText => "plaintext is not UTF-8"

/-- Why a protected text does not open, and under which purpose. -/
structure Protector.Fault where
  purpose : String
  reason : Protector.Reason
  deriving DecidableEq, Repr

/-- The wording of a fault. -/
def Protector.Fault.message (fault : Protector.Fault) : String :=
  s!"decryption failed for purpose '{fault.purpose}': {fault.reason.message}"

namespace Provider

/-- The protector of a purpose. -/
def protector (provider : Provider) (purpose : String) : Protector :=
  ⟨purpose, Hkdf.derive32 (Bytes.ofText provider.application) provider.master.toBytes (Bytes.ofText purpose)⟩

/-- What a provider shows of itself. -/
def shown (provider : Provider) : String :=
  "Provider \x7b master: " ++ MasterKey.shown ++ ", application: " ++ quoted provider.application ++ " \x7d"

end Provider

namespace Protector

/-- The bytes of a protected text: nonce, ciphertext and tag. -/
def sealBytes (p : Protector) (nonce : Nonce) (plain : Bytes) : Bytes :=
  nonce.toList ++ Gcm.encrypt p.key nonce.toList (Bytes.ofText p.purpose) plain

/-- The protected text of a text; the empty text stays empty. -/
def protect (p : Protector) (nonce : Nonce) (plain : String) : String :=
  if plain = "" then "" else Base64.urlSafe.encode (p.sealBytes nonce (Bytes.ofText plain))

/-- The text of the bytes of a protected text. -/
def openBytes (p : Protector) (raw : Bytes) : Except Reason String :=
  if raw.length < Gcm.nonceSize + Gcm.tagSize then .error .truncated
  else
    match Gcm.decrypt? p.key (raw.take Gcm.nonceSize) (Bytes.ofText p.purpose) (raw.drop Gcm.nonceSize) with
    | none => .error .unauthentic
    | some plain =>
      match Bytes.toText? plain with
      | none => .error .notText
      | some text => .ok text

/-- The text of a protected text, blanks around which do not count; the empty text stays empty. -/
def unprotect (p : Protector) (ciphertext : String) : Except Fault String :=
  if ciphertext = "" then .ok ""
  else
    match Base64.urlSafe.decode (trim ciphertext) with
    | .error _ => .error ⟨p.purpose, .notBase64⟩
    | .ok raw =>
      match p.openBytes raw with
      | .error reason => .error ⟨p.purpose, reason⟩
      | .ok text => .ok text

/-- What a protector shows of itself. -/
def shown (p : Protector) : String := "Protector \x7b purpose: " ++ quoted p.purpose ++ ", .. \x7d"

end Protector

end SealedConfig
