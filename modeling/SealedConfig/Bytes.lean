/-!
# Byte strings

Octets as lists, so that the encodings and ciphers built on them are plain recursive functions. A text and its bytes
are the two sides of UTF-8: `ofText` writes, `toText?` reads back what is valid.
-/

namespace SealedConfig

/-- A finite sequence of octets. -/
abbrev Bytes := List UInt8

namespace Bytes

/-- The UTF-8 encoding of a text. -/
def ofText (text : String) : Bytes := text.toUTF8.data.toList

/-- The text that the bytes encode, when they are valid UTF-8. -/
def toText? (bytes : Bytes) : Option String := String.fromUTF8? ⟨bytes.toArray⟩

/-- The vector of a byte string whose length is known. -/
def toVector (bytes : Bytes) {size : Nat} (h : bytes.length = size) : Vector UInt8 size :=
  ⟨bytes.toArray, List.size_toArray.trans h⟩

/-- Byte-wise exclusive or, as long as the shorter operand. -/
def xor (a b : Bytes) : Bytes := List.zipWith (· ^^^ ·) a b

/-- The number whose base-256 digits, most significant first, are the bytes. -/
def toNatBE (bytes : Bytes) : Nat := bytes.foldl (fun n b => n * 256 + b.toNat) 0

/-- The number whose base-256 digits, least significant first, are the bytes. -/
def toNatLE (bytes : Bytes) : Nat := bytes.foldr (fun b n => b.toNat + 256 * n) 0

/-- The `size` low base-256 digits of a number, least significant first. -/
def ofNatLE : (size : Nat) → Nat → Bytes
  | 0, _ => []
  | size + 1, n => UInt8.ofNat (n % 256) :: ofNatLE size (n / 256)

/-- The `size` low base-256 digits of a number, most significant first. -/
def ofNatBE (size n : Nat) : Bytes := (ofNatLE size n).reverse

/-- The bytes cut into pieces of `size + 1`, the last one possibly shorter. -/
def piecesAux (size : Nat) : (room : Nat) → Bytes → List Bytes
  | 0, _ => []
  | _, [] => []
  | room + 1, b :: bs => (b :: bs).take (size + 1) :: piecesAux size room ((b :: bs).drop (size + 1))

/-- The bytes cut into pieces of `size`, the last one possibly shorter; a size of zero counts as one. -/
def pieces (size : Nat) (bytes : Bytes) : List Bytes := piecesAux (size - 1) bytes.length bytes

/-- The bytes followed by as many zeros as fill the last piece of `size`. -/
def padTo (size : Nat) (bytes : Bytes) : Bytes :=
  bytes ++ List.replicate ((size - bytes.length % size) % size) 0

@[simp] theorem length_ofNatLE (size n : Nat) : (ofNatLE size n).length = size := by
  induction size generalizing n with
  | zero => rfl
  | succ size ih => simp [ofNatLE, ih]

@[simp] theorem length_ofNatBE (size n : Nat) : (ofNatBE size n).length = size := by
  simp [ofNatBE]

end Bytes

end SealedConfig
