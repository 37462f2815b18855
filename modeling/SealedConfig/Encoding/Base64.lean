import SealedConfig.Bytes

/-!
# Base 64

Six bits a symbol over one of the two standard alphabets. The padded form fills the last group with `=`, the bare form
writes no padding; reading accepts exactly what writing produces and names the first fault of anything else.
-/

namespace SealedConfig.Base64

/-- Which two symbols close the alphabet, and whether the last group is filled up. -/
structure Variant where
  symbol62 : UInt8
  symbol63 : UInt8
  padded : Bool
  deriving DecidableEq, Repr

/-- The common alphabet with `+` and `/`, padded. -/
def standard : Variant := ⟨43, 47, true⟩

/-- The common alphabet with `+` and `/`, without padding. -/
def standardBare : Variant := ⟨43, 47, false⟩

/-- The alphabet with `-` and `_`, without padding, safe in file names and quoted text. -/
def urlSafe : Variant := ⟨45, 95, false⟩

/-- The code of `=`. -/
def padding : UInt8 := 61

/-- What is wrong with a text that spells no bytes. -/
inductive Fault where
  | symbol (byte : UInt8) (offset : Nat)
  | length (size : Nat)
  | lastSymbol (byte : UInt8) (offset : Nat)
  | padding
  deriving DecidableEq, Repr

/-- The wording of a fault. -/
def Fault.message : Fault → String
  | .symbol byte offset => s!"Invalid symbol {byte.toNat}, offset {offset}."
  | .length size => s!"Invalid input length: {size}"
  | .lastSymbol byte offset => s!"Invalid last symbol {byte.toNat}, offset {offset}."
  | .padding => "Invalid padding"

namespace Variant

variable (v : Variant)

/-- The symbol of a six-bit value. -/
def symbol (n : Nat) : UInt8 :=
  if n < 26 then UInt8.ofNat (65 + n)
  else if n < 52 then UInt8.ofNat (71 + n)
  else if n < 62 then UInt8.ofNat (n - 4)
  else if n = 62 then v.symbol62
  else v.symbol63

/-- The six-bit value of a symbol. -/
def value? (b : UInt8) : Option Nat :=
  if 65 ≤ b ∧ b ≤ 90 then some (b.toNat - 65)
  else if 97 ≤ b ∧ b ≤ 122 then some (b.toNat - 71)
  else if 48 ≤ b ∧ b ≤ 57 then some (b.toNat + 4)
  else if b = v.symbol62 then some 62
  else if b = v.symbol63 then some 63
  else none

/-- Padding symbols, when the variant writes them. -/
def fill (n : Nat) : Bytes := if v.padded then List.replicate n padding else []

/-- The spelling of a byte string: four symbols for three bytes, and a shorter or padded last group. -/
def encodeBytes : Bytes → Bytes
  | [] => []
  | [a] =>
    let n := a.toNat * 16
    [v.symbol (n / 64), v.symbol (n % 64)] ++ v.fill 2
  | [a, b] =>
    let n := (a.toNat * 256 + b.toNat) * 4
    [v.symbol (n / 4096), v.symbol (n / 64 % 64), v.symbol (n % 64)] ++ v.fill 1
  | a :: b :: c :: rest =>
    let n := (a.toNat * 256 + b.toNat) * 256 + c.toNat
    [v.symbol (n / 262144), v.symbol (n / 4096 % 64), v.symbol (n / 64 % 64), v.symbol (n % 64)] ++ encodeBytes rest

/-- The values of a group of symbols, or the fault of the first that is none. -/
def values (offset : Nat) : Bytes → Except Fault (List Nat)
  | [] => .ok []
  | b :: rest =>
    match v.value? b with
    | none => .error (.symbol b offset)
    | some n => (n :: ·) <$> values (offset + 1) rest

/-- The last group read so far: its symbols, and where its padding began. -/
structure Tail where
  symbols : Bytes
  values : List Nat
  paddingStart : Option Nat
  paddingCount : Nat

/-- Splits a last group of at most four bytes into symbols and padding. Padding may not come before the third place,
and no symbol may follow it. -/
def scanTail (base : Nat) : (place : Nat) → Tail → Bytes → Except Fault Tail
  | _, tail, [] => .ok tail
  | place, tail, b :: rest =>
    if b = padding then
      if place < 2 then .error (.symbol b (base + place))
      else
        scanTail base (place + 1)
          { tail with paddingStart := some (tail.paddingStart.getD place), paddingCount := tail.paddingCount + 1 } rest
    else
      match tail.paddingStart with
      | some start => .error (.symbol padding (base + start))
      | none =>
        match v.value? b with
        | none => .error (.symbol b (base + place))
        | some n =>
          scanTail base (place + 1) { tail with symbols := tail.symbols ++ [b], values := tail.values ++ [n] } rest

/-- The bytes of the symbols of a last group; bits that no byte needs must be zero. -/
def tailBytes (base : Nat) (symbols : Bytes) : List Nat → Except Fault Bytes
  | [a, b] =>
    let n := a * 64 + b
    if n % 16 = 0 then .ok [UInt8.ofNat (n / 16)] else .error (.lastSymbol (symbols.getD 1 0) (base + 1))
  | [a, b, c] =>
    let n := (a * 64 + b) * 64 + c
    if n % 4 = 0 then .ok [UInt8.ofNat (n / 1024), UInt8.ofNat (n / 4 % 256)]
    else .error (.lastSymbol (symbols.getD 2 0) (base + 2))
  | [a, b, c, d] =>
    let n := ((a * 64 + b) * 64 + c) * 64 + d
    .ok [UInt8.ofNat (n / 65536), UInt8.ofNat (n / 256 % 256), UInt8.ofNat (n % 256)]
  | _ => .ok []

/-- The bytes of the last group of a text. -/
def decodeTail (base : Nat) (input : Bytes) : Except Fault Bytes := do
  let tail ← v.scanTail base 0 ⟨[], [], none, 0⟩ input
  if input ≠ [] ∧ tail.values.length < 2 then throw (.length (base + tail.values.length))
  if v.padded then
    if (tail.paddingCount + tail.values.length) % 4 ≠ 0 then throw .padding
  else if tail.paddingCount > 0 then throw .padding
  tailBytes base tail.symbols tail.values

/-- Reads whole groups as long as more input follows them, and then the last group. -/
def decodeGroups (base : Nat) : Bytes → Except Fault Bytes
  | a :: b :: c :: d :: e :: rest => do
    match ← v.values base [a, b, c, d] with
    | [w, x, y, z] =>
      let n := ((w * 64 + x) * 64 + y) * 64 + z
      let bytes ← decodeGroups (base + 4) (e :: rest)
      return UInt8.ofNat (n / 65536) :: UInt8.ofNat (n / 256 % 256) :: UInt8.ofNat (n % 256) :: bytes
    | _ => throw .padding
  | input => v.decodeTail base input

/-- A lone last byte that is no symbol is reported before anything else, as a stray line end would be. -/
def strayLast? (input : Bytes) : Option Fault :=
  match input.getLast? with
  | some b =>
    if input.length % 4 = 1 ∧ b ≠ padding ∧ v.value? b = none then some (.symbol b (input.length - 1)) else none
  | none => none

/-- The byte string that a text spells, or its first fault. -/
def decodeBytes (input : Bytes) : Except Fault Bytes :=
  match v.strayLast? input with
  | some fault => .error fault
  | none => v.decodeGroups 0 input

/-- The spelling of a byte string as text. -/
def encode (bytes : Bytes) : String :=
  String.ofList ((v.encodeBytes bytes).map fun b => Char.ofNat b.toNat)

/-- The byte string that a text spells, or its first fault; offsets count bytes of the text. -/
def decode (text : String) : Except Fault Bytes := v.decodeBytes (Bytes.ofText text)

end Variant

end SealedConfig.Base64
