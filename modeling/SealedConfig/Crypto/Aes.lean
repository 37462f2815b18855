import SealedConfig.Bytes

/-!
# AES with a 256-bit key

The forward cipher of the Advanced Encryption Standard, which is all that counter modes need. A block is a vector of
sixteen bytes, column after column.
-/

namespace SealedConfig.Aes

/-- Sixteen bytes, the unit the cipher works on. -/
abbrev Block := Vector UInt8 16

/-- Multiplication by x in the field of 256 elements with x⁸ = x⁴ + x³ + x + 1. -/
def double (a : UInt8) : UInt8 := (a <<< 1) ^^^ (if a &&& 0x80 = 0 then 0 else 0x1b)

/-- The product of two field elements, by the bits of the second. -/
def multiply (a b : UInt8) : UInt8 :=
  ((List.range 8).foldl (fun (product, power) i =>
    (if (b >>> UInt8.ofNat i) &&& 1 = 0 then product else product ^^^ power, double power)) ((0 : UInt8), a)).1

/-- The 254th power, which is the inverse of a nonzero element and zero at zero. -/
def invert (a : UInt8) : UInt8 :=
  let square (x : UInt8) := multiply x x
  let a2 := square a
  let a4 := square a2
  let a8 := square a4
  let a16 := square a8
  let a32 := square a16
  let a64 := square a32
  [a4, a8, a16, a32, a64, square a64].foldl multiply a2

/-- Rotation to the left by `n` places, for `n` between 1 and 7. -/
def rotateLeft (x n : UInt8) : UInt8 := (x <<< n) ||| (x >>> (8 - n))

/-- The substitution of one byte: field inversion followed by an affine map. -/
def substitute (a : UInt8) : UInt8 :=
  let b := invert a
  b ^^^ rotateLeft b 1 ^^^ rotateLeft b 2 ^^^ rotateLeft b 3 ^^^ rotateLeft b 4 ^^^ 0x63

/-- The substitution of every byte, computed once. -/
def substitutionTable : Vector UInt8 256 := Vector.ofFn fun i => substitute (UInt8.ofNat i.val)

/-- The substitution of one byte, by table. -/
@[inline] def substitutionOf (a : UInt8) : UInt8 := substitutionTable.get ⟨a.toNat, UInt8.toNat_lt a⟩

/-- Each byte replaced by its substitution. -/
def subBytes (s : Block) : Block := s.map substitutionOf

/-- Row `r` of the state rotated left by `r` columns. -/
def shiftRows (s : Block) : Block :=
  Vector.ofFn fun i => s.get ⟨(i.val + 4 * (i.val % 4)) % 16, Nat.mod_lt _ (by decide)⟩

/-- Each column multiplied by the fixed polynomial 3x³ + x² + x + 2. -/
def mixColumns (s : Block) : Block :=
  Vector.ofFn fun i =>
    let at_ (k : Nat) : UInt8 := s.get ⟨(i.val / 4 * 4 + (i.val + k) % 4) % 16, Nat.mod_lt _ (by decide)⟩
    double (at_ 0 ^^^ at_ 1) ^^^ at_ 1 ^^^ at_ 2 ^^^ at_ 3

/-- The state with a round key added. -/
def addRoundKey (key s : Block) : Block := Vector.zipWith (· ^^^ ·) s key

/-- The middle rounds and the last one, which mixes no columns. -/
def rounds : List Block → Block → Block
  | [], s => s
  | [last], s => addRoundKey last (shiftRows (subBytes s))
  | key :: keys, s => rounds keys (addRoundKey key (mixColumns (shiftRows (subBytes s))))

/-- The round keys of a key, the first of them used before the first round. -/
structure Schedule where
  first : Block
  rest : List Block

/-- The block cipher under a schedule. -/
def Schedule.encrypt (keys : Schedule) (block : Block) : Block :=
  rounds keys.rest (addRoundKey keys.first block)

/-- A word of the key schedule. -/
abbrev Word := Vector UInt8 4

/-- The sum of two words. -/
def addWords (a b : Word) : Word := Vector.zipWith (· ^^^ ·) a b

/-- The words after the first eight: every eighth adds a rotated, substituted and marked word, every fourth a
substituted one. `recent` holds the last eight words, oldest first. -/
def expandWords : (count place : Nat) → (mark : UInt8) → (recent : List Word) → List Word
  | 0, _, _, _ => []
  | count + 1, place, mark, recent =>
    let last := recent.getD 7 default
    let change : Word :=
      if place % 8 = 0 then
        #v[substitutionOf last[1] ^^^ mark, substitutionOf last[2], substitutionOf last[3], substitutionOf last[0]]
      else if place % 8 = 4 then last.map substitutionOf
      else last
    let word := addWords (recent.headD default) change
    word :: expandWords count (place + 1) (if place % 8 = 0 then double mark else mark) (recent.tail ++ [word])

/-- The word at a place of a key. -/
def keyWord (key : Bytes) (place : Nat) : Word := Vector.ofFn fun i => key.getD (4 * place + i.val) 0

/-- Four words as a block. -/
def blockOf (words : List Word) : Block :=
  Vector.ofFn fun i =>
    (words.getD (i.val / 4) default).get ⟨i.val % 4, Nat.mod_lt _ (by decide)⟩

/-- The words four by four as blocks. -/
def blocksOf : List Word → List Block
  | a :: b :: c :: d :: rest => blockOf [a, b, c, d] :: blocksOf rest
  | _ => []

/-- The schedule of a 256-bit key: fifteen round keys. -/
def Schedule.ofKey (key : Bytes) : Schedule :=
  let start := (List.range 8).map (keyWord key)
  match blocksOf (start ++ expandWords 52 8 1 start) with
  | first :: rest => ⟨first, rest⟩
  | [] => ⟨default, []⟩

end SealedConfig.Aes
