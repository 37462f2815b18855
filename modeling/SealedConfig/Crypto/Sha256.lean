import SealedConfig.Bytes

/-!
# SHA-256, HMAC and HKDF

The 256-bit hash of the Secure Hash Standard, the keyed hash built on it, and the extract-and-expand derivation that
makes one key per purpose out of a master key.
-/

namespace SealedConfig.Sha256

/-- The eight words that chain one block to the next. -/
structure State where
  (a b c d e f g h : UInt32)
  deriving Inhabited

/-- The first thirty-two bits of the fractional parts of the square roots of the first eight primes. -/
def State.initial : State :=
  ⟨0x6a09e667, 0xbb67ae85, 0x3c6ef372, 0xa54ff53a, 0x510e527f, 0x9b05688c, 0x1f83d9ab, 0x5be0cd19⟩

/-- The first thirty-two bits of the fractional parts of the cube roots of the first sixty-four primes. -/
def roundConstants : List UInt32 := [
  0x428a2f98, 0x71374491, 0xb5c0fbcf, 0xe9b5dba5, 0x3956c25b, 0x59f111f1, 0x923f82a4, 0xab1c5ed5,
  0xd807aa98, 0x12835b01, 0x243185be, 0x550c7dc3, 0x72be5d74, 0x80deb1fe, 0x9bdc06a7, 0xc19bf174,
  0xe49b69c1, 0xefbe4786, 0x0fc19dc6, 0x240ca1cc, 0x2de92c6f, 0x4a7484aa, 0x5cb0a9dc, 0x76f988da,
  0x983e5152, 0xa831c66d, 0xb00327c8, 0xbf597fc7, 0xc6e00bf3, 0xd5a79147, 0x06ca6351, 0x14292967,
  0x27b70a85, 0x2e1b2138, 0x4d2c6dfc, 0x53380d13, 0x650a7354, 0x766a0abb, 0x81c2c92e, 0x92722c85,
  0xa2bfe8a1, 0xa81a664b, 0xc24b8b70, 0xc76c51a3, 0xd192e819, 0xd6990624, 0xf40e3585, 0x106aa070,
  0x19a4c116, 0x1e376c08, 0x2748774c, 0x34b0bcb5, 0x391c0cb3, 0x4ed8aa4a, 0x5b9cca4f, 0x682e6ff3,
  0x748f82ee, 0x78a5636f, 0x84c87814, 0x8cc70208, 0x90befffa, 0xa4506ceb, 0xbef9a3f7, 0xc67178f2]

/-- Rotation to the right by `n` places, for `n` between 1 and 31. -/
@[inline] def rotateRight (x n : UInt32) : UInt32 := (x >>> n) ||| (x <<< (32 - n))

/-- One round: the state after mixing in one constant and one message word. -/
def round (s : State) (constant word : UInt32) : State :=
  let sigma1 := rotateRight s.e 6 ^^^ rotateRight s.e 11 ^^^ rotateRight s.e 25
  let choice := (s.e &&& s.f) ^^^ (~~~s.e &&& s.g)
  let t1 := s.h + sigma1 + choice + constant + word
  let sigma0 := rotateRight s.a 2 ^^^ rotateRight s.a 13 ^^^ rotateRight s.a 22
  let majority := (s.a &&& s.b) ^^^ (s.a &&& s.c) ^^^ (s.b &&& s.c)
  ⟨t1 + (sigma0 + majority), s.a, s.b, s.c, s.d + t1, s.e, s.f, s.g⟩

/-- The word that follows a window of sixteen words of the message schedule. -/
def nextWord (window : List UInt32) : UInt32 :=
  let w1 := window.getD 1 0
  let w14 := window.getD 14 0
  let small0 := rotateRight w1 7 ^^^ rotateRight w1 18 ^^^ (w1 >>> 3)
  let small1 := rotateRight w14 17 ^^^ rotateRight w14 19 ^^^ (w14 >>> 10)
  window.getD 0 0 + small0 + window.getD 9 0 + small1

/-- The rounds of one block: each takes the first word of the window and slides the window on. -/
def rounds : List UInt32 → List UInt32 → State → State
  | constant :: constants, window@(word :: rest), s =>
    rounds constants (rest ++ [nextWord window]) (round s constant word)
  | _, _, s => s

/-- The big-endian words of a block. -/
def words (block : Bytes) : List UInt32 :=
  (Bytes.pieces 4 block).map fun piece => UInt32.ofNat (Bytes.toNatBE piece)

/-- The state after one block of sixty-four bytes. -/
def compress (s : State) (block : Bytes) : State :=
  let t := rounds roundConstants (words block) s
  ⟨s.a + t.a, s.b + t.b, s.c + t.c, s.d + t.d, s.e + t.e, s.f + t.f, s.g + t.g, s.h + t.h⟩

/-- The message, a one bit, zeros up to eight bytes before a block's end, and the message length in bits. -/
def pad (message : Bytes) : Bytes :=
  let zeros := (119 - message.length % 64) % 64
  message ++ 0x80 :: List.replicate zeros 0 ++ Bytes.ofNatBE 8 (8 * message.length)

/-- The bytes of a state. -/
def State.toBytes (s : State) : Bytes :=
  [s.a, s.b, s.c, s.d, s.e, s.f, s.g, s.h].flatMap fun w => Bytes.ofNatBE 4 w.toNat

/-- The digest of a message, thirty-two bytes. -/
def hash (message : Bytes) : Bytes :=
  ((Bytes.pieces 64 (pad message)).foldl compress State.initial).toBytes

@[simp] theorem length_hash (message : Bytes) : (hash message).length = 32 := by
  simp [hash, State.toBytes]

end SealedConfig.Sha256

namespace SealedConfig.Hmac

/-- The key as one block: hashed when it is longer than a block, and filled with zeros. -/
def blockKey (key : Bytes) : Bytes :=
  let short := if key.length > 64 then Sha256.hash key else key
  short ++ List.replicate (64 - short.length) 0

/-- The keyed hash of a message. -/
def sha256 (key message : Bytes) : Bytes :=
  let block := blockKey key
  let inner := Sha256.hash (block.map (· ^^^ 0x36) ++ message)
  Sha256.hash (block.map (· ^^^ 0x5c) ++ inner)

@[simp] theorem length_sha256 (key message : Bytes) : (sha256 key message).length = 32 := by
  simp [sha256]

end SealedConfig.Hmac

namespace SealedConfig.Hkdf

/-- The pseudorandom key drawn from input key material; an absent salt counts as a block of zeros. -/
def extract (salt keyMaterial : Bytes) : Bytes := Hmac.sha256 salt keyMaterial

/-- Thirty-two bytes of output key material bound to `info`: the first block of the expansion. -/
def expand32 (pseudorandomKey info : Bytes) : Bytes := Hmac.sha256 pseudorandomKey (info ++ [1])

/-- A key of thirty-two bytes derived from key material under a salt and a context. -/
def derive32 (salt keyMaterial info : Bytes) : Bytes := expand32 (extract salt keyMaterial) info

@[simp] theorem length_derive32 (salt keyMaterial info : Bytes) : (derive32 salt keyMaterial info).length = 32 := by
  simp [derive32, expand32]

end SealedConfig.Hkdf
