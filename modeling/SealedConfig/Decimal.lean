/-!
# Shortest decimals

A 64-bit float is written with the fewest decimal digits that still read back as the same float, positionally. All
arithmetic is on whole numbers: a float is a mantissa of at most 53 bits times a power of two.
-/

namespace SealedConfig.Decimal

/-- The value `mantissa` · 2^`exponent`. -/
structure Binary where
  mantissa : Nat
  exponent : Int
  deriving DecidableEq, Repr

/-- A quotient of whole numbers as numerator and positive denominator. -/
structure Ratio where
  numerator : Nat
  denominator : Nat

/-- `mantissa` · `base`^`exponent` as a quotient. -/
def Ratio.scaled (mantissa base : Nat) (exponent : Int) : Ratio :=
  if exponent ≥ 0 then ⟨mantissa * base.pow exponent.toNat, 1⟩ else ⟨mantissa, base.pow (-exponent).toNat⟩

/-- The whole number nearest to a quotient, a half going to the even neighbour. -/
def Ratio.round (r : Ratio) : Nat :=
  let whole := r.numerator / r.denominator
  let twice := 2 * (r.numerator % r.denominator)
  if twice > r.denominator ∨ (twice = r.denominator ∧ whole % 2 = 1) then whole + 1 else whole

/-- Whether one quotient is at most another. -/
def Ratio.le (a b : Ratio) : Bool := a.numerator * b.denominator ≤ b.numerator * a.denominator

/-- Whether one quotient is less than another. -/
def Ratio.lt (a b : Ratio) : Bool := a.numerator * b.denominator < b.numerator * a.denominator

/-- The float nearest to `digits` · 10^`exponent`, unless it is too large for one. -/
def nearest? (digits : Nat) (exponent : Int) : Option Binary :=
  if digits = 0 then some ⟨0, -1074⟩
  else
    let value := Ratio.scaled digits 10 exponent
    let guess : Int := (value.numerator.log2 : Int) - value.denominator.log2 - 52
    let fits (q : Int) : Bool :=
      let scaled := Ratio.scaled 1 2 q
      Ratio.lt value ⟨scaled.numerator <<< 53, scaled.denominator⟩
    let q := if fits (guess - 1) then guess - 1 else if fits guess then guess else guess + 1
    let q := max q (-1074)
    let unit := Ratio.scaled 1 2 q
    let mantissa := (Ratio.mk (value.numerator * unit.denominator) (value.denominator * unit.numerator)).round
    let (mantissa, q) := if mantissa = 1 <<< 53 then (1 <<< 52, q + 1) else (mantissa, q)
    if q > 971 then none else some ⟨mantissa, q⟩

/-- The numbers that round to a float: the ends of their interval. -/
def Binary.interval (b : Binary) : Ratio × Ratio :=
  let low := if b.mantissa = 1 <<< 52 ∧ b.exponent > -1074 then 4 * b.mantissa - 1 else 4 * b.mantissa - 2
  (Ratio.scaled low 2 (b.exponent - 2), Ratio.scaled (4 * b.mantissa + 2) 2 (b.exponent - 2))

/-- Whether `digits` · 10^`exponent` rounds to a float. -/
def Binary.readsBack (b : Binary) (digits : Nat) (exponent : Int) : Bool :=
  let value := Ratio.scaled digits 10 exponent
  let (low, high) := b.interval
  if b.mantissa % 2 = 0 then Ratio.le low value && Ratio.le value high else Ratio.lt low value && Ratio.lt value high

/-- How many decimal digits a number has. -/
def digitCount (n : Nat) : Nat := (Nat.toDigits 10 n).length

/-- The shortest decimal of a float from `count` digits on, `top` being the power of ten above the first digit. -/
def Binary.shortestFrom (b : Binary) (top : Int) : (room count : Nat) → Nat × Int
  | 0, _ => (b.mantissa, 0)
  | room + 1, count =>
    let exponent := top - count
    let value := Ratio.scaled b.mantissa 2 b.exponent
    let unit := Ratio.scaled 1 10 exponent
    let grid : Ratio := ⟨value.numerator * unit.denominator, value.denominator * unit.numerator⟩
    let digits := grid.round
    let other := if digits * grid.denominator > grid.numerator then digits - 1 else digits + 1
    if b.readsBack digits exponent then (digits, exponent)
    else if b.readsBack other exponent then (other, exponent)
    else b.shortestFrom top room (count + 1)

/-- The shortest decimal of a positive float, as digits and a power of ten. -/
def Binary.shortest (b : Binary) : Nat × Int :=
  let value := Ratio.scaled b.mantissa 2 b.exponent
  let whole := value.numerator / value.denominator
  let top : Int :=
    if whole > 0 then digitCount whole
    else 1 - (digitCount (value.denominator / value.numerator) : Int)
  b.shortestFrom (top + 1) 20 1

/-- Digits times a power of ten, written positionally with at least one digit on either side of the point. -/
def positional (digits : Nat) (exponent : Int) : String :=
  let shown := Nat.toDigits 10 digits
  if exponent ≥ 0 then String.ofList (shown ++ List.replicate exponent.toNat '0' ++ ['.', '0'])
  else
    let places := (-exponent).toNat
    let padded := List.replicate (places + 1 - shown.length) '0' ++ shown
    let whole := padded.take (padded.length - places)
    let fraction := padded.drop (padded.length - places)
    let trimmed := (fraction.reverse.dropWhile (· == '0')).reverse
    String.ofList (whole ++ '.' :: (if trimmed = [] then ['0'] else trimmed))

/-- The text of the float nearest to `digits` · 10^`exponent`, unless it is too large for one. -/
def floatText? (digits : Nat) (exponent : Int) : Option String :=
  (nearest? digits exponent).map fun b =>
    if b.mantissa = 0 then "0.0"
    else
      let (shown, place) := b.shortest
      positional shown place

end SealedConfig.Decimal
