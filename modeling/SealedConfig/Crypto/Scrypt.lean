import SealedConfig.Crypto.Sha256

/-!
# scrypt

The memory-hard derivation of a key from a passphrase, with blocks of 1024 bytes and no parallel lanes: a table of
2^n blocks is filled in order and then read in an order that depends on its contents.
-/

namespace SealedConfig.Scrypt

/-- Rotation to the left by `n` places, for `n` between 1 and 31. -/
@[inline] def rotateLeft (x n : UInt32) : UInt32 := (x <<< n) ||| (x >>> (32 - n))

/-- Sixteen words, the unit of the mixing function. -/
structure Chunk where
  (x0 x1 x2 x3 x4 x5 x6 x7 x8 x9 x10 x11 x12 x13 x14 x15 : UInt32)
  deriving Inhabited

/-- Word by word exclusive or. -/
def Chunk.xor (a b : Chunk) : Chunk :=
  ⟨a.x0 ^^^ b.x0, a.x1 ^^^ b.x1, a.x2 ^^^ b.x2, a.x3 ^^^ b.x3, a.x4 ^^^ b.x4, a.x5 ^^^ b.x5, a.x6 ^^^ b.x6,
    a.x7 ^^^ b.x7, a.x8 ^^^ b.x8, a.x9 ^^^ b.x9, a.x10 ^^^ b.x10, a.x11 ^^^ b.x11, a.x12 ^^^ b.x12,
    a.x13 ^^^ b.x13, a.x14 ^^^ b.x14, a.x15 ^^^ b.x15⟩

/-- Word by word sum. -/
def Chunk.add (a b : Chunk) : Chunk :=
  ⟨a.x0 + b.x0, a.x1 + b.x1, a.x2 + b.x2, a.x3 + b.x3, a.x4 + b.x4, a.x5 + b.x5, a.x6 + b.x6, a.x7 + b.x7,
    a.x8 + b.x8, a.x9 + b.x9, a.x10 + b.x10, a.x11 + b.x11, a.x12 + b.x12, a.x13 + b.x13, a.x14 + b.x14,
    a.x15 + b.x15⟩

/-- Four words mixed by four additions, rotations and sums. -/
@[inline] def quarterRound (a b c d : UInt32) : UInt32 × UInt32 × UInt32 × UInt32 :=
  let b := b ^^^ rotateLeft (a + d) 7
  let c := c ^^^ rotateLeft (b + a) 9
  let d := d ^^^ rotateLeft (c + b) 13
  let a := a ^^^ rotateLeft (d + c) 18
  (a, b, c, d)

/-- A round on the columns followed by one on the rows. -/
def doubleRound (s : Chunk) : Chunk :=
  let (x0, x4, x8, x12) := quarterRound s.x0 s.x4 s.x8 s.x12
  let (x5, x9, x13, x1) := quarterRound s.x5 s.x9 s.x13 s.x1
  let (x10, x14, x2, x6) := quarterRound s.x10 s.x14 s.x2 s.x6
  let (x15, x3, x7, x11) := quarterRound s.x15 s.x3 s.x7 s.x11
  let (x0, x1, x2, x3) := quarterRound x0 x1 x2 x3
  let (x5, x6, x7, x4) := quarterRound x5 x6 x7 x4
  let (x10, x11, x8, x9) := quarterRound x10 x11 x8 x9
  let (x15, x12, x13, x14) := quarterRound x15 x12 x13 x14
  ⟨x0, x1, x2, x3, x4, x5, x6, x7, x8, x9, x10, x11, x12, x13, x14, x15⟩

/-- Eight rounds, added to where they started. -/
def mixChunk (s : Chunk) : Chunk :=
  (doubleRound (doubleRound (doubleRound (doubleRound s)))).add s

/-- Sixteen chunks, the unit of the table. -/
abbrev Block := List Chunk

/-- The chunks chained through the mixing function, the even results before the odd ones. -/
def mixBlock (block : Block) : Block :=
  let step (state : Chunk × List Chunk × List Chunk) (chunk : Chunk) : Chunk × List Chunk × List Chunk :=
    let mixed := mixChunk (state.1.xor chunk)
    (mixed, state.2.2, mixed :: state.2.1)
  let (_, evens, odds) := block.foldl step (block.getLastD default, [], [])
  evens.reverse ++ odds.reverse

/-- The table of successive mixtures of a block, and the block after the last of them. -/
def fill : (count : Nat) → Array Block → Block → Array Block × Block
  | 0, table, block => (table, block)
  | count + 1, table, block => fill count (table.push block) (mixBlock block)

/-- Mixes in the table's blocks, the last chunk's first word saying which. -/
def revisit (table : Array Block) : (count : Nat) → Block → Block
  | 0, block => block
  | count + 1, block =>
    let place := (block.getLastD default).x0.toNat % table.size
    revisit table count (mixBlock (List.zipWith Chunk.xor block (table.getD place [])))

/-- The chunk that sixty-four bytes spell, little-endian. -/
def Chunk.ofBytes (bytes : Bytes) : Chunk :=
  let word (place : Nat) : UInt32 := UInt32.ofNat (Bytes.toNatLE ((bytes.drop (4 * place)).take 4))
  ⟨word 0, word 1, word 2, word 3, word 4, word 5, word 6, word 7, word 8, word 9, word 10, word 11, word 12,
    word 13, word 14, word 15⟩

/-- The bytes of a chunk, little-endian. -/
def Chunk.toBytes (c : Chunk) : Bytes :=
  [c.x0, c.x1, c.x2, c.x3, c.x4, c.x5, c.x6, c.x7, c.x8, c.x9, c.x10, c.x11, c.x12, c.x13, c.x14, c.x15].flatMap
    fun w => Bytes.ofNatLE 4 w.toNat

/-- The block of 1024 bytes spread over a table of 2^n blocks. -/
def spread (n : Nat) (bytes : Bytes) : Bytes :=
  let (table, block) := fill (1 <<< n) #[] ((Bytes.pieces 64 bytes).map Chunk.ofBytes)
  (revisit table (1 <<< n) block).flatMap Chunk.toBytes

/-- `count` blocks of thirty-two bytes of the one-pass passphrase stretch. -/
def stretch (passphrase salt : Bytes) (count : Nat) : Bytes :=
  (List.range count).flatMap fun i => Hmac.sha256 passphrase (salt ++ Bytes.ofNatBE 4 (i + 1))

/-- A key of thirty-two bytes from a passphrase and a salt at a cost of 2^n blocks. -/
def derive32 (passphrase salt : Bytes) (n : Nat) : Bytes :=
  stretch passphrase (spread n (stretch passphrase salt 32)) 1

end SealedConfig.Scrypt
