/-!
# Moments

Points of civil time: seconds and nanoseconds since the start of 1970 and the distance of the local clock from the
universal one, with the two texts that are made of them.
-/

namespace SealedConfig

/-- A point of time, and by how many minutes the local clock is ahead. -/
structure Moment where
  seconds : Nat
  nanoseconds : Nat
  offsetMinutes : Int
  deriving DecidableEq, Repr, Inhabited

namespace Moment

/-- A number in decimal with at least `width` digits. -/
def digits (width n : Nat) : String :=
  let shown := toString n
  String.ofList (List.replicate (width - shown.length) '0') ++ shown

/-- Year, month and day of a number of days since the start of 1970, by the calendar whose years begin in March. -/
def civil (days : Nat) : Nat × Nat × Nat :=
  let shifted := days + 719468
  let era := shifted / 146097
  let dayOfEra := shifted % 146097
  let yearOfEra := (dayOfEra - dayOfEra / 1460 + dayOfEra / 36524 - dayOfEra / 146096) / 365
  let dayOfYear := dayOfEra - (365 * yearOfEra + yearOfEra / 4 - yearOfEra / 100)
  let shiftedMonth := (5 * dayOfYear + 2) / 153
  let day := dayOfYear - (153 * shiftedMonth + 2) / 5 + 1
  let month := if shiftedMonth < 10 then shiftedMonth + 3 else shiftedMonth - 9
  (yearOfEra + era * 400 + (if month ≤ 2 then 1 else 0), month, day)

/-- A year in four digits; one that needs more has a sign. -/
def yearText (year : Nat) : String := if year < 10000 then digits 4 year else "+" ++ toString year

/-- Seconds of the local clock. -/
def localSeconds (moment : Moment) : Nat := (moment.seconds + moment.offsetMinutes * 60 : Int).toNat

/-- Year, month, day, hour, minute and second of the local clock, as texts. -/
def parts (moment : Moment) : String × String × String × String × String × String :=
  let total := moment.localSeconds
  let (year, month, day) := civil (total / 86400)
  (yearText year, digits 2 month, digits 2 day, digits 2 (total / 3600 % 24), digits 2 (total / 60 % 60),
    digits 2 (total % 60))

/-- The local time as fourteen digits. -/
def stamp (moment : Moment) : String :=
  let (year, month, day, hour, minute, second) := moment.parts
  year ++ month ++ day ++ hour ++ minute ++ second

/-- A fraction of a second, in thousandths, millionths or billionths as needed. -/
def fraction (nanoseconds : Nat) : String :=
  if nanoseconds = 0 then ""
  else if nanoseconds % 1000000 = 0 then "." ++ digits 3 (nanoseconds / 1000000)
  else if nanoseconds % 1000 = 0 then "." ++ digits 6 (nanoseconds / 1000)
  else "." ++ digits 9 nanoseconds

/-- The distance of the local clock from the universal one. -/
def offset (minutes : Int) : String :=
  let size := minutes.natAbs
  (if minutes < 0 then "-" else "+") ++ digits 2 (size / 60) ++ ":" ++ digits 2 (size % 60)

/-- The local time in the form of internet timestamps. -/
def timestamp (moment : Moment) : String :=
  let (year, month, day, hour, minute, second) := moment.parts
  s!"{year}-{month}-{day}T{hour}:{minute}:{second}" ++ fraction moment.nanoseconds ++ offset moment.offsetMinutes

end Moment

end SealedConfig
