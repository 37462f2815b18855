import SealedConfig.Json.Number

/-!
# Reading JSON text

One recursive reader for each form of a value. A text holds one value between blanks; containers nest at most 127 deep.
Of two faults the one met first from the left is reported.
-/

namespace SealedConfig.Json

/-- Whether a character is blank between tokens. -/
def isBlank (c : Char) : Bool := c == ' ' || c == '\n' || c == '\t' || c == '\r'

/-- The text from the first character on that is not blank. -/
def skipBlanks (s : List Char) : List Char := s.dropWhile isBlank

/-- The value of four hexadecimal digits. -/
def hexValue? (a b c d : Char) : Option Nat := do
  let digit (c : Char) : Option Nat :=
    if '0' ≤ c ∧ c ≤ '9' then some (c.toNat - 48)
    else if 'a' ≤ c ∧ c ≤ 'f' then some (c.toNat - 87)
    else if 'A' ≤ c ∧ c ≤ 'F' then some (c.toNat - 55)
    else none
  return (((← digit a) * 16 + (← digit b)) * 16 + (← digit c)) * 16 + (← digit d)

/-- The unit of UTF-16 that four digits of an escape spell. -/
def readUnit (s : List Char) : Except Fault Nat :=
  if utf8Length s < 4 then .error (Fault.before .eofString [])
  else
    match s with
    | a :: b :: c :: d :: _ =>
      match hexValue? a b c d with
      | some n => .ok n
      | none => .error ⟨.invalidEscape, utf8Length s - 4⟩
    | _ => .error ⟨.invalidEscape, utf8Length s - 4⟩

/-- The character of an escape whose letter `u` has been read, and how many characters it takes. A leading surrogate
must be followed by the escape of a trailing one. -/
def readUnicodeEscape (s : List Char) : Except Fault (Char × Nat) := do
  let unit ← readUnit s
  if 0xdc00 ≤ unit ∧ unit ≤ 0xdfff then throw (Fault.before .loneSurrogate (s.drop 4))
  if unit < 0xd800 ∨ 0xdbff < unit then return (Char.ofNat unit, 4)
  match s.drop 4 with
  | [] => throw (Fault.before .eofString [])
  | '\\' :: rest =>
    match rest with
    | [] => throw (Fault.before .eofString [])
    | 'u' :: rest =>
      let low ← readUnit rest
      if low < 0xdc00 ∨ 0xdfff < low then throw (Fault.before .loneSurrogate (rest.drop 4))
      return (Char.ofNat (0x10000 + (unit - 0xd800) * 0x400 + (low - 0xdc00)), 10)
    | rest => throw (Fault.here .unfinishedEscape rest)
  | rest => throw (Fault.here .unfinishedEscape rest)

/-- The character of an escape whose backslash has been read, and how many characters it takes. -/
def readEscape (s : List Char) : Except Fault (Char × Nat) :=
  match s with
  | [] => .error (Fault.before .eofString [])
  | '"' :: _ => .ok ('"', 1)
  | '\\' :: _ => .ok ('\\', 1)
  | '/' :: _ => .ok ('/', 1)
  | 'b' :: _ => .ok ('\x08', 1)
  | 'f' :: _ => .ok ('\x0c', 1)
  | 'n' :: _ => .ok ('\n', 1)
  | 'r' :: _ => .ok ('\r', 1)
  | 't' :: _ => .ok ('\t', 1)
  | 'u' :: rest => (readUnicodeEscape rest).map fun (c, size) => (c, size + 1)
  | s => .error (Fault.here .invalidEscape s)

/-- The characters of a string whose opening quote has been read. -/
def readString (s : List Char) : Except Fault (List Char × List Char) :=
  match s with
  | [] => .error (Fault.before .eofString [])
  | c :: rest =>
    if c = '"' then .ok ([], rest)
    else if c = '\\' then do
      let (escaped, size) ← readEscape rest
      let (more, after) ← readString (rest.drop size)
      return (escaped :: more, after)
    else if c.toNat < 0x20 then .error (Fault.before .controlCharacter rest)
    else do
      let (more, after) ← readString rest
      return (c :: more, after)
termination_by s.length
decreasing_by all_goals (simp; try omega)

/-- The rest of a text after the remaining letters of a word. -/
def readWord : (letters : List Char) → List Char → Except Fault (List Char)
  | [], s => .ok s
  | _, [] => .error (Fault.before .eofValue [])
  | letter :: letters, c :: rest =>
    if c = letter then readWord letters rest else .error (Fault.here .expectedWord (c :: rest))

mutual

/-- Reads a value; `room` bounds the steps and `depth` the containers that may still open. -/
def readValue : (room depth : Nat) → List Char → Except Fault (Json × List Char)
  | 0, _, s => .error (Fault.before .expectedValue s)
  | room + 1, depth, s =>
    match skipBlanks s with
    | [] => .error (Fault.here .eofValue [])
    | 'n' :: rest => (readWord "ull".toList rest).map fun after => (.null, after)
    | 't' :: rest => (readWord "rue".toList rest).map fun after => (.bool true, after)
    | 'f' :: rest => (readWord "alse".toList rest).map fun after => (.bool false, after)
    | '"' :: rest => (readString rest).map fun (cs, after) => (.string (String.ofList cs), after)
    | '-' :: rest => (Number.read true rest).map fun (n, after) => (.number n, after)
    | '[' :: rest =>
      match depth with
      | 0 => .error (Fault.here .nestingLimit ('[' :: rest))
      | depth + 1 =>
        match skipBlanks rest with
        | [] => .error (Fault.here .eofList [])
        | ']' :: after => .ok (.array [], after)
        | rest => (readItems room depth rest).map fun (items, after) => (.array items, after)
    | '\x7b' :: rest =>
      match depth with
      | 0 => .error (Fault.here .nestingLimit ('\x7b' :: rest))
      | depth + 1 =>
        match skipBlanks rest with
        | [] => .error (Fault.here .eofObject [])
        | '\x7d' :: after => .ok (.object [], after)
        | '"' :: rest =>
          (readPairs room depth rest).map fun (pairs, after) => (.object (Members.ofPairs pairs), after)
        | rest => .error (Fault.here .keyNotString rest)
    | c :: rest =>
      if Number.isDigit c then (Number.read false (c :: rest)).map fun (n, after) => (.number n, after)
      else .error (Fault.here .expectedValue (c :: rest))

/-- Reads the items of a list from the first one on. -/
def readItems : (room depth : Nat) → List Char → Except Fault (List Json × List Char)
  | 0, _, s => .error (Fault.before .expectedValue s)
  | room + 1, depth, s => do
    let (item, rest) ← readValue room depth s
    match skipBlanks rest with
    | [] => throw (Fault.here .eofList [])
    | ']' :: after => return ([item], after)
    | ',' :: rest =>
      match skipBlanks rest with
      | [] => throw (Fault.here .eofValue [])
      | ']' :: rest => throw (Fault.here .trailingComma (']' :: rest))
      | rest => do
        let (items, after) ← readItems room depth rest
        return (item :: items, after)
    | rest => throw (Fault.here .expectedListEnd rest)

/-- Reads the members of an object from the first key on, whose opening quote has been read. -/
def readPairs : (room depth : Nat) → List Char → Except Fault (List (String × Json) × List Char)
  | 0, _, s => .error (Fault.before .expectedValue s)
  | room + 1, depth, s => do
    let (key, rest) ← readString s
    match skipBlanks rest with
    | [] => throw (Fault.here .eofObject [])
    | ':' :: rest => do
      let (value, rest) ← readValue room depth rest
      match skipBlanks rest with
      | [] => throw (Fault.here .eofObject [])
      | '\x7d' :: after => return ([(String.ofList key, value)], after)
      | ',' :: rest =>
        match skipBlanks rest with
        | [] => throw (Fault.here .eofValue [])
        | '"' :: rest => do
          let (pairs, after) ← readPairs room depth rest
          return ((String.ofList key, value) :: pairs, after)
        | '\x7d' :: rest => throw (Fault.here .trailingComma ('\x7d' :: rest))
        | rest => throw (Fault.here .keyNotString rest)
      | rest => throw (Fault.here .expectedObjectEnd rest)
    | rest => throw (Fault.here .expectedColon rest)

end

/-- How deep containers may nest. -/
def nestingLimit : Nat := 127

/-- The value of a text, or the first fault in it. -/
def parse (text : List Char) : Except Fault Json := do
  let (value, rest) ← readValue (2 * text.length + 1) nestingLimit text
  match skipBlanks rest with
  | [] => return value
  | rest => throw (Fault.here .trailingCharacters rest)

/-- The text of a string literal with its quotes, when it is nothing else. -/
def literalValue? (literal : List Char) : Option String :=
  match literal with
  | '"' :: rest =>
    match readString rest with
    | .ok (cs, []) => some (String.ofList cs)
    | _ => none
  | _ => none

end SealedConfig.Json
