import SealedConfig.Encoding.Base64
import SealedConfig.Text.Blank

/-!
# Master keys

The 256-bit key that every other key is derived from, and its text form. A text spells a key exactly when, blanks at its
ends aside, it is what `toBase64` writes.
-/

namespace SealedConfig

/-- A key of thirty-two bytes. -/
structure MasterKey where
  bytes : Vector UInt8 32
  deriving DecidableEq

namespace MasterKey

/-- How many bytes a key has. -/
def size : Nat := 32

/-- Why something is no key. -/
inductive Fault where
  | size (count : Nat)
  | spelling (fault : Base64.Fault)
  | notText
  deriving DecidableEq, Repr

/-- The wording of a fault. -/
def Fault.message : Fault → String
  | .size count => s!"expected {MasterKey.size} key bytes, got {count}"
  | .spelling fault => s!"invalid base64: {fault.message}"
  | .notText => "unwrapped key is not UTF-8"

/-- The bytes as a list. -/
def toBytes (key : MasterKey) : Bytes := key.bytes.toList

/-- The key that a byte string is, if it has the right size. -/
def ofBytes (bytes : Bytes) : Except Fault MasterKey :=
  if h : bytes.length = 32 then .ok ⟨Bytes.toVector bytes h⟩ else .error (.size bytes.length)

/-- The text form of a key. -/
def toBase64 (key : MasterKey) : String := Base64.standard.encode key.toBytes

/-- The key that a text spells; blanks around it do not count. -/
def ofBase64 (text : String) : Except Fault MasterKey :=
  match Base64.standard.decode (trim text) with
  | .error fault => .error (.spelling fault)
  | .ok bytes => ofBytes bytes

/-- The key that the bytes of a text spell. -/
def ofTextBytes (bytes : Bytes) : Except Fault MasterKey :=
  match Bytes.toText? bytes with
  | some text => ofBase64 text
  | none => .error .notText

/-- What a key shows of itself. -/
def shown : String := "MasterKey(<redacted>)"

end MasterKey

end SealedConfig
