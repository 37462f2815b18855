import SealedConfig.Json.Basic
import SealedConfig.Json.Fault

/-!
# JSON numbers

Reading a number keeps its value when it is whole and fits 64 bits, and its spelling otherwise. A number too large for
a 64-bit float is refused; whether it is depends on the digits that fit 64 bits and a power of ten, both rounded.
-/

namespace SealedConfig.Json.Number

/-- Whether a character is a decimal digit. -/
def isDigit (c : Char) : Bool := '0' ≤ c && c ≤ '9'

/-- The value of a digit. -/
def digitValue (c : Char) : Nat := c.toNat - 48

/-- The number that decimal digits spell. -/
def digitsValue (digits : List Char) : Nat := digits.foldl (fun n c => n * 10 + digitValue c) 0

/-- Digits taken up while they fit 64 bits, and how many were left over. -/
def takeUp : (significand : Nat) → List Char → Nat × Nat
  | significand, [] => (significand, 0)
  | significand, c :: rest =>
    let next := significand * 10 + digitValue c
    if next < 1 <<< 64 then takeUp next rest else (significand, rest.length + 1)

/-- A whole number with only its 53 leading bits kept, halves going to the even neighbour. -/
def roundTo53 (n : Nat) : Nat :=
  let extra := n.log2 + 1 - 53
  if extra = 0 then n
  else
    let kept := n >>> extra
    let lost := n % (1 <<< extra)
    let half := 1 <<< (extra - 1)
    (if lost > half || (lost == half && kept % 2 == 1) then kept + 1 else kept) <<< extra

/-- Whether a number is beyond the largest 64-bit float. -/
def overflows (significand : Nat) (exponent : Int) : Bool :=
  if significand = 0 || exponent < 0 then false
  else if exponent > 308 then true
  else roundTo53 significand * roundTo53 (Nat.pow 10 exponent.toNat) ≥ (1 <<< 1024) - (1 <<< 970)

/-- The largest exponent that is told apart from larger ones. -/
def exponentLimit : Nat := (1 <<< 31) - 1

/-- The digits of an exponent, up to the one with which it passes the limit. -/
def takeExponent : (value : Nat) → List Char → Option Nat × List Char
  | value, [] => (some value, [])
  | value, c :: rest =>
    if isDigit c then
      let next := value * 10 + digitValue c
      if next > exponentLimit then (none, rest) else takeExponent next rest
    else (some value, c :: rest)

/-- The digits of an exponent whose sign has been read, applied to a significand: the rest of the text when the number is
in range. -/
def readPower (negative : Bool) (significand : Nat) (start : Int) (s : List Char) : Except Fault (List Char) :=
  match s with
  | [] => .error (Fault.before .eofValue [])
  | c :: _ =>
    if isDigit c then
      match takeExponent 0 s with
      | (some value, rest) =>
        let exponent := if negative then start - value else start + value
        if overflows significand exponent then .error (Fault.before .numberRange rest) else .ok rest
      | (none, rest) =>
        if significand ≠ 0 ∧ ¬negative then .error (Fault.before .numberRange rest)
        else .ok (rest.dropWhile isDigit)
    else .error (Fault.here .invalidNumber s)

/-- The exponent after its letter, applied to a significand. -/
def readExponent (significand : Nat) (start : Int) (s : List Char) : Except Fault (List Char) :=
  match s with
  | '+' :: rest => readPower false significand start rest
  | '-' :: rest => readPower true significand start rest
  | rest => readPower false significand start rest

/-- An exponent if one follows, else the end of a number that is not whole. -/
def readScale (significand : Nat) (exponent : Int) (s : List Char) : Except Fault (List Char) :=
  match s with
  | 'e' :: rest => readExponent significand exponent rest
  | 'E' :: rest => readExponent significand exponent rest
  | rest => if overflows significand exponent then .error (Fault.before .numberRange rest) else .ok rest

/-- The digits after the point, and an exponent if one follows. -/
def readFraction (significand : Nat) (exponent : Int) (s : List Char) : Except Fault (List Char) :=
  let digits := s.takeWhile isDigit
  let rest := s.dropWhile isDigit
  if digits = [] then
    match rest with
    | [] => .error (Fault.here .eofValue [])
    | _ => .error (Fault.here .invalidNumber rest)
  else
    let (grown, left) := takeUp significand digits
    readScale grown (exponent - (digits.length - left : Nat)) rest

/-- The number whose sign has been read and whose whole digits are given, the rest of the text behind them. -/
def finish (negative : Bool) (digits rest : List Char) : Except Fault (Number × List Char) :=
  let (significand, left) := takeUp 0 digits
  let spelling (after : List Char) : Number :=
    .decimal (String.ofList ((if negative then ['-'] else []) ++ digits ++ rest.take (rest.length - after.length)))
  match rest with
  | '.' :: fraction => (readFraction significand left fraction).map fun after => (spelling after, after)
  | 'e' :: exponent => (readExponent significand left exponent).map fun after => (spelling after, after)
  | 'E' :: exponent => (readExponent significand left exponent).map fun after => (spelling after, after)
  | _ =>
    if left > 0 then
      if overflows significand left then .error (Fault.before .numberRange rest) else .ok (spelling rest, rest)
    else if negative then
      if significand = 0 ∨ 1 <<< 63 < significand then .ok (spelling rest, rest)
      else .ok (.integer (-(significand : Int)), rest)
    else .ok (.integer significand, rest)

/-- Reads a number whose sign has been read. No zero may lead other digits. -/
def read (negative : Bool) (s : List Char) : Except Fault (Number × List Char) :=
  match s with
  | [] => .error (Fault.before .eofValue [])
  | '0' :: rest =>
    match rest with
    | d :: _ => if isDigit d then .error (Fault.here .invalidNumber rest) else finish negative ['0'] rest
    | [] => finish negative ['0'] rest
  | c :: rest =>
    if isDigit c then finish negative (c :: rest.takeWhile isDigit) (rest.dropWhile isDigit)
    else .error (Fault.here .invalidNumber (c :: rest))

end SealedConfig.Json.Number
