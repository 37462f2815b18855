import SealedConfig.Age.Armor
import SealedConfig.Age.Header
import SealedConfig.Age.Payload
import SealedConfig.Crypto.Scrypt
import SealedConfig.Encoding.Hex
import SealedConfig.KeyStore.FileCipher

/-!
# Encrypted files

A file key of sixteen bytes unlocks the payload; the header wraps it for a passphrase or for a public key. A header for
a passphrase holds nothing else, so that whoever opens the file knows that the passphrase was known to its maker.
-/

namespace SealedConfig.Age

/-- The kind of a stanza for a passphrase. -/
def passphraseKind : Bytes := Bytes.ofText "scrypt"

/-- The kind of a stanza for a public key. -/
def publicKeyKind : Bytes := Bytes.ofText "X25519"

/-- The cost at which passphrases are stretched: two to this power blocks. -/
def workFactor : Nat := 10

/-- The highest cost that a file may ask for. -/
def workFactorLimit : Nat := 14

/-- The nonce under which the one file key of a wrapping key is wrapped. -/
def wrapNonce : Bytes := List.replicate 12 0

/-- The key that a passphrase wraps with. -/
def passphraseWrapKey (passphrase : String) (salt : Bytes) (cost : Nat) : Bytes :=
  Scrypt.derive32 (Bytes.ofText passphrase) (Bytes.ofText "age-encryption.org/v1/scrypt" ++ salt) cost

/-- The key that a shared secret wraps with, bound to both public halves. -/
def sharedWrapKey (shared theirs ours : Bytes) : Bytes :=
  Hkdf.derive32 (theirs ++ ours) shared (Bytes.ofText "age-encryption.org/v1/X25519")

/-- The bare base 64 of a parameter. -/
def parameter (bytes : Bytes) : Bytes := Base64.standardBare.encodeBytes bytes

/-- The bytes of a parameter that spells `size` of them. -/
def ofParameter? (size : Nat) (word : Bytes) : Option Bytes :=
  match Base64.standardBare.decodeBytes word with
  | .ok bytes => if bytes.length = size then some bytes else none
  | .error _ => none

/-- The decimal digits of a cost; there is no sign and no zero in front. -/
def ofCost? (word : Bytes) : Option Nat :=
  if word.all (fun b => 48 ≤ b && b ≤ 57) && !word.isEmpty && word.length ≤ 2 && (word.head? != some 48 || word = [48]) then
    some (word.foldl (fun n b => n * 10 + (b.toNat - 48)) 0)
  else none

/-- The file key in a stanza, or why the file does not open; nothing when the stanza is for something else. -/
def fileKeyOf (key : FileKey) (stanza : Stanza) : Option (Except FileCipherFault Bytes) :=
  match key with
  | .passphrase passphrase =>
    if stanza.kind ≠ passphraseKind then none
    else
      match stanza.parameters with
      | [saltWord, costWord] =>
        match ofParameter? 16 saltWord, ofCost? costWord with
        | some salt, some cost =>
          if stanza.body.length ≠ 32 ∨ workFactorLimit < cost then some (.error .head)
          else
            match ChaCha20Poly1305.decrypt? (passphraseWrapKey passphrase salt cost) wrapNonce stanza.body with
            | some fileKey => some (.ok fileKey)
            | none => some (.error .head)
        | _, _ => some (.error .head)
      | _ => some (.error .head)
  | .identity identity =>
    if stanza.kind ≠ publicKeyKind then none
    else
      match stanza.parameters with
      | [word] =>
        match ofParameter? 32 word with
        | some theirs =>
          let shared := X25519.multiply identity.toBytes theirs
          if stanza.body.length ≠ 32 ∨ shared.all (· == 0) then some (.error .head)
          else
            (ChaCha20Poly1305.decrypt? (sharedWrapKey shared theirs identity.publicKey) wrapNonce stanza.body).map .ok
        | none => some (.error .head)
      | _ => some (.error .head)

/-- Whether a header is for a passphrase alone. -/
def isForPassphrase (stanzas : List Stanza) : Bool :=
  match stanzas with
  | [stanza] => stanza.kind == passphraseKind
  | _ => false

/-- The header of a file, the sixteen bytes of its payload key, and the payload with whether reading on fails. A stanza
for a passphrase has to be the only one. -/
def readHead (text : String) : Except FileCipherFault (Header × Bytes × Armor.Readable) :=
  let readable := Armor.read text
  match Header.read? readable.bytes with
  | none => .error .head
  | some (header, rest) =>
    if header.stanzas.any (fun stanza => stanza.kind == passphraseKind) && !isForPassphrase header.stanzas then
      .error .head
    else if rest.length < 16 then .error .head
    else .ok (header, rest.take 16, ⟨rest.drop 16, readable.isBroken⟩)

/-- Whether a passphrase opens a file. -/
def needsPassphrase (text : String) : Except FileCipherFault Bool :=
  (readHead text).map fun (header, _, _) => isForPassphrase header.stanzas

/-- The content of a file. -/
def decrypt (key : FileKey) (text : String) : Except FileCipherFault Bytes :=
  match readHead text with
  | .error fault => .error fault
  | .ok (header, salt, payload) =>
    match header.stanzas.findSome? (fileKeyOf key) with
    | none => .error .head
    | some (.error fault) => .error fault
    | some (.ok fileKey) =>
      if header.code ≠ Header.codeOf fileKey header.authenticated then .error .head
      else
        match Payload.read? (Payload.keyOf fileKey salt) payload.bytes with
        | none => .error .content
        | some content => if payload.isBroken then .error .content else .ok content

/-- How many random bytes a file takes: its key, the salt of its wrapping, and the salt of its payload. For a public key
the wrapping takes a secret of its own and a stanza of noise follows. -/
def randomSize : FileKey → Nat
  | .passphrase _ => 16 + 16 + 16
  | .identity _ => 16 + 32 + 32 + 16

/-- A stanza that no key opens and every reader passes over. -/
def noise (random : Bytes) : Stanza :=
  ⟨Bytes.ofText (Hex.encode (random.take 4) ++ "-grease"), [], random.drop 4⟩

/-- The stanzas of a file key. -/
def stanzasFor (key : FileKey) (fileKey random : Bytes) : List Stanza :=
  match key with
  | .passphrase passphrase =>
    let salt := random.take 16
    let body := ChaCha20Poly1305.encrypt (passphraseWrapKey passphrase salt workFactor) wrapNonce fileKey
    [⟨passphraseKind, [parameter salt, Bytes.ofText (toString workFactor)], body⟩]
  | .identity identity =>
    let secret := random.take 32
    let ours := X25519.publicKey secret
    let shared := X25519.multiply secret identity.publicKey
    let body := ChaCha20Poly1305.encrypt (sharedWrapKey shared ours identity.publicKey) wrapNonce fileKey
    [⟨publicKeyKind, [parameter ours], body⟩, noise ((random.drop 32).take 32)]

/-- The file of a content, made with random bytes. -/
def encrypt (key : FileKey) (random content : Bytes) : String :=
  let fileKey := random.take 16
  let rest := random.drop 16
  let salt := rest.drop (rest.length - 16)
  let head := Header.write fileKey (stanzasFor key fileKey rest)
  Armor.write (head ++ salt ++ Payload.write (Payload.keyOf fileKey salt) content)

/-- The format as key stores use it. -/
def fileCipher : FileCipher := ⟨Armor.isArmored, needsPassphrase, randomSize, encrypt, decrypt⟩

end SealedConfig.Age
