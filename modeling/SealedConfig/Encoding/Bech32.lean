import SealedConfig.Bytes

/-!
# Bech32

A label and a byte string as one word of text: five bits a symbol after the last `1`, closed by six symbols of checksum.
A word is wholly lower case or wholly upper case.
-/

namespace SealedConfig.Bech32

/-- The symbols of the five-bit values. -/
def alphabet : List Char := "qpzry9x8gf2tvdw0s3jn54khce6mua7l".toList

/-- The five-bit value of a lower-case symbol. -/
def value? (c : Char) : Option Nat := alphabet.findIdx? (· == c)

/-- The checksum register after one more five-bit value. -/
def step (register value : Nat) : Nat :=
  let top := register >>> 25
  let moved := ((register &&& 0x1ffffff) <<< 5) ^^^ value
  [(0, 0x3b6a57b2), (1, 0x26508e6d), (2, 0x1ea119fa), (3, 0x3d4233dd), (4, 0x2a1462b3)].foldl
    (fun r (entry : Nat × Nat) => if top.testBit entry.1 then r ^^^ entry.2 else r) moved

/-- The checksum register of a label and its values. -/
def polynomial (label : List Char) (values : List Nat) : Nat :=
  let expanded := label.map (·.toNat / 32) ++ 0 :: label.map (·.toNat % 32)
  (expanded ++ values).foldl step 1

/-- The six checksum values of a label and its data. -/
def checksum (label : List Char) (values : List Nat) : List Nat :=
  let register := polynomial label (values ++ [0, 0, 0, 0, 0, 0]) ^^^ 1
  (List.range 6).map fun i => (register >>> (5 * (5 - i))) % 32

/-- Regroups digits of `from_` bits into digits of `to_` bits, and returns what is left over: its value and its size. -/
def regroup (from_ to_ : Nat) : List Nat → (rest bits : Nat) → List Nat × Nat × Nat
  | [], rest, bits => ([], rest, bits)
  | digit :: digits, rest, bits =>
    let value := (rest <<< from_) + digit
    let size := bits + from_
    if size < to_ then regroup from_ to_ digits value size
    else
      let kept := size - to_
      if kept < to_ then
        let (out, r, b) := regroup from_ to_ digits (value % (1 <<< kept)) kept
        (value >>> kept :: out, r, b)
      else
        let again := kept - to_
        let (out, r, b) := regroup from_ to_ digits (value % (1 <<< again)) again
        (value >>> kept :: (value >>> again) % (1 <<< to_) :: out, r, b)

/-- The five-bit values of a byte string, the last one filled with zeros. -/
def valuesOf (bytes : Bytes) : List Nat :=
  let (values, rest, bits) := regroup 8 5 (bytes.map (·.toNat)) 0 0
  if bits = 0 then values else values ++ [rest <<< (5 - bits)]

/-- The byte string of five-bit values; what is left over must be fewer than five bits, all zero. -/
def bytesOf? (values : List Nat) : Option Bytes :=
  let (bytes, rest, bits) := regroup 5 8 values 0 0
  if bits < 5 ∧ rest = 0 then some (bytes.map UInt8.ofNat) else none

/-- The lower-case word of a label and a byte string. -/
def encode (label : String) (bytes : Bytes) : String :=
  let values := valuesOf bytes
  let symbols := (values ++ checksum label.toList values).map fun v => alphabet.getD v 'q'
  String.ofList (label.toList ++ '1' :: symbols)

/-- A word cut at its last `1`. -/
def split? (word : List Char) : Option (List Char × List Char) :=
  let symbols := (word.reverse.takeWhile (· ≠ '1')).reverse
  let label := word.take (word.length - symbols.length - 1)
  if symbols.length < word.length then some (label, symbols) else none

/-- The label, in lower case, and the byte string of a word. -/
def decode? (word : String) : Option (String × Bytes) := do
  let chars := word.toList
  guard (chars.all fun c => 33 ≤ c.toNat ∧ c.toNat ≤ 126)
  guard ¬(chars.any Char.isUpper ∧ chars.any Char.isLower)
  let (label, symbols) ← split? (chars.map Char.toLower)
  guard (label ≠ [] ∧ 6 ≤ symbols.length)
  let values ← symbols.mapM value?
  guard (polynomial label values = 1)
  let bytes ← bytesOf? (values.take (values.length - 6))
  return (String.ofList label, bytes)

end SealedConfig.Bech32
