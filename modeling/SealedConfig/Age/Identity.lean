import SealedConfig.Crypto.X25519
import SealedConfig.Encoding.Bech32
import SealedConfig.Text.Blank
import SealedConfig.Text.Lines

/-!
# Identities

The key pairs that files are encrypted for. An identity is kept in a text file, on the first line that is neither blank
nor a remark; its secret and its public half are each one checksummed word.
-/

namespace SealedConfig.Age

/-- The secret half of a key pair. -/
structure Identity where
  secret : Vector UInt8 32
  deriving DecidableEq

namespace Identity

/-- What the word of a secret begins with. -/
def secretLabel : String := "age-secret-key-"

/-- What the word of a public key begins with. -/
def publicLabel : String := "age"

/-- The secret as a list. -/
def toBytes (identity : Identity) : Bytes := identity.secret.toList

/-- The public half. -/
def publicKey (identity : Identity) : Bytes := X25519.publicKey identity.toBytes

/-- The identity of thirty-two bytes. -/
def ofBytes? (bytes : Bytes) : Option Identity :=
  if h : bytes.length = 32 then some ⟨Bytes.toVector bytes h⟩ else none

/-- The identity of a word. -/
def ofWord? (word : String) : Option Identity :=
  match Bech32.decode? word with
  | some (label, bytes) => if label = secretLabel then ofBytes? bytes else none
  | none => none

/-- The lines of a text, trimmed. -/
def trimmedLines (text : String) : List String := (lines text.toList).map fun line => trim (String.ofList line)

/-- The identity that a text holds: that of its first line that is neither blank nor a remark. -/
def ofText? (text : String) : Option Identity :=
  match (trimmedLines text).find? fun line => line != "" && line.toList.head? != some '#' with
  | some line => ofWord? line
  | none => none

/-- The word of the public half. -/
def publicWord (identity : Identity) : String := Bech32.encode publicLabel identity.publicKey

/-- The word of the secret half, in capitals. -/
def secretWord (identity : Identity) : String := (Bech32.encode secretLabel identity.toBytes).map Char.toUpper

end Identity

end SealedConfig.Age
