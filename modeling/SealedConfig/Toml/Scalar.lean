import SealedConfig.Decimal
import SealedConfig.Toml.Basic

/-!
# TOML scalars

Readers for the values that hold no others: strings in four quotings, whole numbers, floats, booleans, dates and times.
Each takes the rest of a text and gives the value and the rest behind it, or nothing when the text is malformed.
-/

namespace SealedConfig.Toml

/-- Whether a character is blank within a line. -/
def isBlank (c : Char) : Bool := c == ' ' || c == '\t'

/-- The text from the first character on that is not blank within a line. -/
def skipBlanks (s : List Char) : List Char := s.dropWhile isBlank

/-- Whether a character may stand in a comment or a string on one line. -/
def isPrinting (c : Char) : Bool := c == '\t' || (0x20 ≤ c.toNat && c.toNat != 0x7f)

/-- Whether a character is a decimal digit. -/
def isDigit (c : Char) : Bool := '0' ≤ c && c ≤ '9'

/-- The value of a digit in a base up to sixteen. -/
def digit? (base : Nat) (c : Char) : Option Nat :=
  let value :=
    if isDigit c then c.toNat - 48
    else if 'a' ≤ c ∧ c ≤ 'f' then c.toNat - 87
    else if 'A' ≤ c ∧ c ≤ 'F' then c.toNat - 55
    else 16
  if value < base then some value else none

/-- The number that digits of a base spell. -/
def digitsValue (base : Nat) (digits : List Char) : Nat :=
  digits.foldl (fun n c => n * base + (digit? base c).getD 0) 0

/-- A line end taken off the front of a text. -/
def newline? : List Char → Option (List Char)
  | '\n' :: rest => some rest
  | '\r' :: '\n' :: rest => some rest
  | _ => none

/-- Digits of a base with single underscores between them. -/
def digitRun (base : Nat) : List Char → List Char × List Char
  | [] => ([], [])
  | '_' :: c :: rest =>
    if (digit? base c).isSome then
      let (digits, after) := digitRun base rest
      (c :: digits, after)
    else ([], '_' :: c :: rest)
  | c :: rest =>
    if (digit? base c).isSome then
      let (digits, after) := digitRun base rest
      (c :: digits, after)
    else ([], c :: rest)

/-- A run of digits that begins with a digit. -/
def digits? (base : Nat) : List Char → Option (List Char × List Char)
  | c :: rest => if (digit? base c).isSome then some (digitRun base (c :: rest)) else none
  | [] => none

/-! ## Strings -/

/-- The character that `count` hexadecimal digits name. -/
def unicodeEscape? (count : Nat) (s : List Char) : Option (Char × List Char) := do
  let digits := s.take count
  guard (digits.length = count ∧ digits.all fun c => (digit? 16 c).isSome)
  let n := digitsValue 16 digits
  guard (n < 0xd800 ∨ (0xdfff < n ∧ n < 0x110000))
  return (Char.ofNat n, s.drop count)

/-- The character of an escape whose backslash has been read. -/
def escape? : List Char → Option (Char × List Char)
  | 'b' :: rest => some ('\x08', rest)
  | 't' :: rest => some ('\t', rest)
  | 'n' :: rest => some ('\n', rest)
  | 'f' :: rest => some ('\x0c', rest)
  | 'r' :: rest => some ('\r', rest)
  | '"' :: rest => some ('"', rest)
  | '\\' :: rest => some ('\\', rest)
  | 'u' :: rest => unicodeEscape? 4 rest
  | 'U' :: rest => unicodeEscape? 8 rest
  | _ => none

/-- The characters of a basic string on one line, behind its opening quote. -/
def basic? : (room : Nat) → List Char → Option (List Char × List Char)
  | 0, _ => none
  | _, [] => none
  | room + 1, c :: rest =>
    if c = '"' then some ([], rest)
    else if c = '\\' then do
      let (escaped, rest) ← escape? rest
      let (more, after) ← basic? room rest
      return (escaped :: more, after)
    else if isPrinting c then do
      let (more, after) ← basic? room rest
      return (c :: more, after)
    else none

/-- The characters of a literal string on one line, behind its opening quote. -/
def literal? : List Char → Option (List Char × List Char)
  | [] => none
  | c :: rest =>
    if c = '\'' then some ([], rest)
    else if isPrinting c then (literal? rest).map fun (more, after) => (c :: more, after)
    else none

/-- The text behind blanks and line ends. -/
def skipLines : List Char → List Char
  | '\r' :: '\n' :: rest => skipLines rest
  | c :: rest => if isBlank c ∨ c = '\n' then skipLines rest else c :: rest
  | [] => []

/-- The closing quotes of a string over several lines: three, and up to two more that belong to the string. -/
def closing? (quote : Char) (s : List Char) : Option (List Char × List Char) :=
  let count := (s.takeWhile (· == quote)).length
  if count < 3 then none
  else
    let own := min (count - 3) 2
    some (List.replicate own quote, s.drop (own + 3))

/-- The characters of a basic string over several lines, behind its opening quotes. -/
def basicLines? : (room : Nat) → List Char → Option (List Char × List Char)
  | 0, _ => none
  | _, [] => none
  | room + 1, c :: rest =>
    match if c = '"' then closing? '"' (c :: rest) else none with
    | some found => some found
    | none =>
      if c = '\\' then
        match newline? (skipBlanks rest) with
        | some rest => basicLines? room (skipLines rest)
        | none => do
          let (escaped, rest) ← escape? rest
          let (more, after) ← basicLines? room rest
          return (escaped :: more, after)
      else
        match newline? (c :: rest) with
        | some rest => (basicLines? room rest).map fun (more, after) => ('\n' :: more, after)
        | none =>
          if isPrinting c then (basicLines? room rest).map fun (more, after) => (c :: more, after) else none

/-- The characters of a literal string over several lines, behind its opening quotes. -/
def literalLines? : (room : Nat) → List Char → Option (List Char × List Char)
  | 0, _ => none
  | _, [] => none
  | room + 1, c :: rest =>
    match if c = '\'' then closing? '\'' (c :: rest) else none with
    | some found => some found
    | none =>
      match newline? (c :: rest) with
      | some rest => (literalLines? room rest).map fun (more, after) => ('\n' :: more, after)
      | none => if isPrinting c then (literalLines? room rest).map fun (more, after) => (c :: more, after) else none

/-- The text without a line end at its front. -/
def dropNewline (s : List Char) : List Char := (newline? s).getD s

/-- A string in any of the four quotings. -/
def quotedText? : List Char → Option (String × List Char)
  | '"' :: '"' :: '"' :: rest =>
    (basicLines? (rest.length + 1) (dropNewline rest)).map fun (cs, after) => (String.ofList cs, after)
  | '"' :: rest => (basic? (rest.length + 1) rest).map fun (cs, after) => (String.ofList cs, after)
  | '\'' :: '\'' :: '\'' :: rest =>
    (literalLines? (rest.length + 1) (dropNewline rest)).map fun (cs, after) => (String.ofList cs, after)
  | '\'' :: rest => (literal? rest).map fun (cs, after) => (String.ofList cs, after)
  | _ => none

/-! ## Dates and times -/

/-- A number of exactly `count` digits within bounds. -/
def field? (count low high : Nat) (s : List Char) : Option (Nat × List Char) := do
  let digits := s.take count
  guard (digits.length = count ∧ digits.all isDigit)
  let n := digitsValue 10 digits
  guard (low ≤ n ∧ n ≤ high)
  return (n, s.drop count)

/-- One given character. -/
def mark? (mark : Char) : List Char → Option (List Char)
  | c :: rest => if c = mark then some rest else none
  | [] => none

/-- How many days a month has. -/
def daysIn (year month : Nat) : Nat :=
  if month = 2 then
    if year % 4 = 0 ∧ (year % 100 ≠ 0 ∨ year % 400 = 0) then 29 else 28
  else if month = 4 ∨ month = 6 ∨ month = 9 ∨ month = 11 then 30
  else 31

/-- The text behind a date. -/
def date? (s : List Char) : Option (List Char) := do
  let (year, s) ← field? 4 0 9999 s
  let s ← mark? '-' s
  let (month, s) ← field? 2 1 12 s
  let s ← mark? '-' s
  let (_, s) ← field? 2 1 (daysIn year month) s
  return s

/-- The text behind a time of day. -/
def time? (s : List Char) : Option (List Char) := do
  let (_, s) ← field? 2 0 23 s
  let s ← mark? ':' s
  let (_, s) ← field? 2 0 59 s
  let s ← mark? ':' s
  let (_, s) ← field? 2 0 60 s
  match s with
  | '.' :: rest =>
    guard ((rest.takeWhile isDigit) ≠ [])
    return rest.dropWhile isDigit
  | _ => return s

/-- The text behind an offset from universal time, if there is one. -/
def offset? (s : List Char) : Option (List Char) :=
  match s with
  | 'Z' :: rest => some rest
  | 'z' :: rest => some rest
  | c :: rest =>
    if c = '+' ∨ c = '-' then do
      let (_, s) ← field? 2 0 23 rest
      let s ← mark? ':' s
      let (_, s) ← field? 2 0 59 s
      return s
    else some s
  | [] => some []

/-- The text behind a date, a time of day, or both. -/
def moment? (s : List Char) : Option (List Char) :=
  match date? s with
  | none => time? s
  | some rest =>
    match rest with
    | 'T' :: time => time? time >>= offset?
    | 't' :: time => time? time >>= offset?
    | ' ' :: time =>
      match time with
      | c :: _ => if isDigit c then time? time >>= offset? else some rest
      | [] => some rest
    | _ => some rest

/-- Whether a text begins as a date or a time of day does. -/
def startsMoment (s : List Char) : Bool :=
  let digits := (s.takeWhile isDigit).length
  let next := (s.drop digits).head?
  (digits == 4 && next == some '-') || (digits == 2 && next == some ':')

/-! ## Numbers -/

/-- Whether a whole number fits 64 bits with sign. -/
def fits64 (n : Int) : Bool := -(Int.pow 2 63) ≤ n && n < Int.pow 2 63

/-- A whole number in a base other than ten, behind its mark. -/
def based? (base : Nat) (s : List Char) : Option (Toml × List Char) := do
  let (digits, rest) ← digits? base s
  let n : Int := digitsValue base digits
  guard (fits64 n)
  return (.integer n, rest)

/-- The exponent of a float behind its letter. -/
def exponent? (s : List Char) : Option (Int × List Char) :=
  let (negative, s) := match s with
    | '+' :: rest => (false, rest)
    | '-' :: rest => (true, rest)
    | rest => (false, rest)
  (digits? 10 s).map fun (digits, rest) =>
    let n : Int := digitsValue 10 digits
    (if negative then -n else n, rest)

/-- A decimal exponent beyond which every float is zero or too large. -/
def exponentBound : Int := 5000

/-- A float from its digits, the number of them after the point, and its exponent. One that is too large is refused; one
that is too small is minus infinity. -/
def float? (negative : Bool) (digits : List Char) (places : Nat) (exponent : Int) : Option Toml :=
  let value := digitsValue 10 digits
  let scale := max (-(exponentBound + digits.length)) (min (exponentBound + digits.length) exponent)
  match Decimal.floatText? value (scale - places) with
  | some shown => some (.float (if negative then "-" ++ shown else shown))
  | none => if negative then some (.float "-inf") else none

/-- A number in base ten behind its sign. -/
def decimal? (negative : Bool) (s : List Char) : Option (Toml × List Char) := do
  let (whole, rest) ← digits? 10 s
  guard (whole.length = 1 ∨ whole.head? ≠ some '0')
  match rest with
  | '.' :: rest =>
    let (fraction, rest) ← digits? 10 rest
    let (exponent, rest) ←
      match rest with
      | 'e' :: rest => exponent? rest
      | 'E' :: rest => exponent? rest
      | rest => some (0, rest)
    return (← float? negative (whole ++ fraction) fraction.length exponent, rest)
  | 'e' :: rest =>
    let (exponent, rest) ← exponent? rest
    return (← float? negative whole 0 exponent, rest)
  | 'E' :: rest =>
    let (exponent, rest) ← exponent? rest
    return (← float? negative whole 0 exponent, rest)
  | rest =>
    let n : Int := digitsValue 10 whole
    let n := if negative then -n else n
    guard (fits64 n)
    return (.integer n, rest)

/-- A number behind its sign: a word for a special float, or digits. -/
def signed? (negative : Bool) (s : List Char) : Option (Toml × List Char) :=
  match s with
  | 'i' :: 'n' :: 'f' :: rest => some (.float (if negative then "-inf" else "inf"), rest)
  | 'n' :: 'a' :: 'n' :: rest => some (.float "NaN", rest)
  | _ => decimal? negative s

/-- A number. -/
def number? (s : List Char) : Option (Toml × List Char) :=
  match s with
  | '+' :: rest => signed? false rest
  | '-' :: rest => signed? true rest
  | '0' :: 'x' :: rest => based? 16 rest
  | '0' :: 'o' :: rest => based? 8 rest
  | '0' :: 'b' :: rest => based? 2 rest
  | _ => signed? false s

/-- A value that holds no others. -/
def scalar? (s : List Char) : Option (Toml × List Char) :=
  match s with
  | '"' :: _ => (quotedText? s).map fun (text, rest) => (.string text, rest)
  | '\'' :: _ => (quotedText? s).map fun (text, rest) => (.string text, rest)
  | 't' :: 'r' :: 'u' :: 'e' :: rest => some (.boolean true, rest)
  | 'f' :: 'a' :: 'l' :: 's' :: 'e' :: rest => some (.boolean false, rest)
  | _ => if startsMoment s then (moment? s).map fun rest => (.moment, rest) else number? s

end SealedConfig.Toml
