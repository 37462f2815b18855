import SealedConfig.Crypto.Aes

/-!
# AES-256 in Galois counter mode

Authenticated encryption with associated data: the text is masked by a key stream of enciphered counters, and a
polynomial hash of associated data and ciphertext, masked the same way, is the tag. `decrypt?` accepts exactly what
`encrypt` produces.
-/

namespace SealedConfig.Gcm

open Aes (Block)

/-- How many bytes a nonce has. -/
def nonceSize : Nat := 12

/-- How many bytes a tag has. -/
def tagSize : Nat := 16

/-- One step of multiplication in the field of 2^128 elements: the next power of the multiplier. -/
@[inline] def halve (v : Nat) : Nat :=
  if v % 2 = 0 then v >>> 1 else (v >>> 1) ^^^ (0xe1 <<< 120)

/-- The sum of the shifted multipliers that the `count` low bits of `x` select, highest of them first. -/
def multiplyAux (x : Nat) : (count : Nat) → (product v : Nat) → Nat
  | 0, product, _ => product
  | count + 1, product, v => multiplyAux x count (if x.testBit count then product ^^^ v else product) (halve v)

/-- The product of two field elements, the first bit of a block being the coefficient of 1. -/
def multiply (x y : Nat) : Nat := multiplyAux x 128 0 y

/-- The polynomial hash of a byte string whose last block is filled with zeros. -/
def hashFrom (h start : Nat) (bytes : Bytes) : Nat :=
  (Bytes.pieces 16 (Bytes.padTo 16 bytes)).foldl (fun y block => multiply (y ^^^ Bytes.toNatBE block) h) start

/-- The polynomial hash of associated data and ciphertext, closed by their lengths in bits. -/
def hash (h : Nat) (associated ciphertext : Bytes) : Nat :=
  let sizes := Bytes.ofNatBE 8 (8 * associated.length) ++ Bytes.ofNatBE 8 (8 * ciphertext.length)
  hashFrom h (hashFrom h (hashFrom h 0 associated) ciphertext) sizes

/-- The block of a nonce followed by a 32-bit counter, which wraps. -/
def counterBlock (nonce : Bytes) (counter : Nat) : Block :=
  let bytes := nonce ++ Bytes.ofNatBE 4 counter
  Vector.ofFn fun i => bytes.getD i.val 0

/-- The text masked by the enciphered counters from `counter` on. -/
def maskAux (cipher : Block → Block) (nonce : Bytes) : (counter : Nat) → List Bytes → Bytes
  | _, [] => []
  | counter, piece :: rest =>
    Bytes.xor piece (cipher (counterBlock nonce counter)).toList ++ maskAux cipher nonce (counter + 1) rest

/-- The text masked by the key stream; masking twice gives the text back. -/
def mask (cipher : Block → Block) (nonce text : Bytes) : Bytes :=
  maskAux cipher nonce 2 (Bytes.pieces 16 text)

/-- The tag of a ciphertext. -/
def tag (cipher : Block → Block) (nonce associated ciphertext : Bytes) : Bytes :=
  let h := Bytes.toNatBE (cipher (Vector.replicate 16 0)).toList
  Bytes.xor (Bytes.ofNatBE 16 (hash h associated ciphertext)) (cipher (counterBlock nonce 1)).toList

/-- Ciphertext and tag of a text under a block cipher. -/
def encryptWith (cipher : Block → Block) (nonce associated text : Bytes) : Bytes :=
  let ciphertext := mask cipher nonce text
  ciphertext ++ tag cipher nonce associated ciphertext

/-- The text of a ciphertext whose tag verifies. -/
def decryptWith? (cipher : Block → Block) (nonce associated sealed : Bytes) : Option Bytes :=
  let size := sealed.length - tagSize
  let ciphertext := sealed.take size
  if tagSize ≤ sealed.length ∧ sealed.drop size = tag cipher nonce associated ciphertext then
    some (mask cipher nonce ciphertext)
  else none

/-- Ciphertext and tag of a text under a 256-bit key and a nonce of twelve bytes. -/
def encrypt (key nonce associated text : Bytes) : Bytes :=
  encryptWith (Aes.Schedule.ofKey key).encrypt nonce associated text

/-- The text of a sealed byte string, if it was sealed under this key, nonce and associated data. -/
def decrypt? (key nonce associated sealed : Bytes) : Option Bytes :=
  decryptWith? (Aes.Schedule.ofKey key).encrypt nonce associated sealed

end SealedConfig.Gcm
