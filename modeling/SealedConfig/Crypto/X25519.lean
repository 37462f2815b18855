import SealedConfig.Bytes

/-!
# X25519

Scalar multiplication on the Montgomery curve y² = x³ + 486662x² + x over the integers modulo 2^255 − 19, on
x-coordinates alone.
-/

namespace SealedConfig.X25519

/-- The prime modulus. -/
def modulus : Nat := (1 <<< 255) - 19

/-- The difference of two residues. -/
@[inline] def sub (a b : Nat) : Nat := (a + modulus - b) % modulus

/-- A power of a residue, by the bits of the exponent, lowest first. -/
def powerAux : (bits : Nat) → (base exponent result : Nat) → Nat
  | 0, _, _, result => result
  | bits + 1, base, exponent, result =>
    powerAux bits (base * base % modulus) (exponent / 2)
      (if exponent % 2 = 0 then result else result * base % modulus)

/-- The inverse of a nonzero residue, and zero at zero. -/
def invert (a : Nat) : Nat := powerAux 255 a (modulus - 2) 1

/-- The x-coordinates, as fractions, of two points whose difference is the base point. -/
structure Ladder where
  (x2 z2 x3 z3 : Nat)

/-- One rung: the first point doubled and the sum of both, for a base point with x-coordinate `x1`. -/
def Ladder.step (x1 : Nat) (l : Ladder) : Ladder :=
  let a := (l.x2 + l.z2) % modulus
  let aa := a * a % modulus
  let b := sub l.x2 l.z2
  let bb := b * b % modulus
  let e := sub aa bb
  let c := (l.x3 + l.z3) % modulus
  let d := sub l.x3 l.z3
  let da := d * a % modulus
  let cb := c * b % modulus
  let sum := (da + cb) % modulus
  let difference := sub da cb
  ⟨aa * bb % modulus, e * ((aa + 121665 * e) % modulus) % modulus,
    sum * sum % modulus, x1 * (difference * difference % modulus) % modulus⟩

/-- Both points exchanged. -/
def Ladder.swap (l : Ladder) : Ladder := ⟨l.x3, l.z3, l.x2, l.z2⟩

/-- The ladder down the `count` low bits of a scalar, highest first. -/
def climb (scalar x1 : Nat) : (count : Nat) → Ladder → Ladder
  | 0, l => l
  | count + 1, l =>
    if scalar.testBit count then climb scalar x1 count (l.swap.step x1).swap
    else climb scalar x1 count (l.step x1)

/-- The scalar of a secret of thirty-two bytes: a multiple of eight with bit 254 set. -/
def clamp (secret : Bytes) : Nat :=
  let n := Bytes.toNatLE secret
  (1 <<< 254) + n % (1 <<< 254) / 8 * 8

/-- The product of a secret and a point, both as thirty-two bytes. -/
def multiply (secret point : Bytes) : Bytes :=
  let x := Bytes.toNatLE point % (1 <<< 255) % modulus
  let l := climb (clamp secret) x 255 ⟨1, 0, x, 1⟩
  Bytes.ofNatLE 32 (l.x2 * invert l.z2 % modulus)

/-- The point with x-coordinate nine. -/
def basePoint : Bytes := Bytes.ofNatLE 32 9

/-- The public key of a secret. -/
def publicKey (secret : Bytes) : Bytes := multiply secret basePoint

end SealedConfig.X25519
