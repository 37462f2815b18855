import SealedConfig.Json.Parser
import SealedConfig.KeyPath

/-!
# Where strings stand in a text

A second, more lenient walk over JSON text that records for each path of keys the bytes of the string literal that
stands there, quotes included. Lists are walked for their syntax and nothing inside them is recorded; of two literals
at one path the later one counts. The walk reads no escapes and no numbers, so it also accepts texts that are no JSON.
-/

namespace SealedConfig.Json

/-- The bytes of a text from `start` up to but not including `stop`. -/
structure Span where
  start : Nat
  stop : Nat
  deriving DecidableEq, Repr, Inhabited

namespace Span

/-- Why a text cannot be walked. -/
inductive Reason where
  | trailingCharacters
  | expectedColon
  | endOfInput
  | expectedKey
  | invalidKey
  | expectedObjectEnd
  | expectedListEnd
  | unterminatedString
  | expectedValue
  deriving DecidableEq, Repr

/-- The wording of a reason. -/
def Reason.message : Reason → String
  | .trailingCharacters => "trailing characters"
  | .expectedColon => "expected ':'"
  | .endOfInput => "unexpected end of input"
  | .expectedKey => "expected object key"
  | .invalidKey => "invalid object key"
  | .expectedObjectEnd => "expected ',' or '\x7d'"
  | .expectedListEnd => "expected ',' or ']'"
  | .unterminatedString => "unterminated string"
  | .expectedValue => "expected value"

/-- A reason, and the byte of the text where the walk stopped. -/
structure Stop where
  offset : Nat
  reason : Reason
  deriving DecidableEq, Repr

/-- The rest of a text and the byte it begins at. -/
structure Cursor where
  offset : Nat
  rest : List Char
  deriving Repr

/-- The cursor moved over characters that it has in front of it. -/
def Cursor.past (cursor : Cursor) (taken rest : List Char) : Cursor := ⟨cursor.offset + utf8Length taken, rest⟩

/-- The cursor moved over blanks. -/
def Cursor.skipBlanks (cursor : Cursor) : Cursor :=
  cursor.past (cursor.rest.takeWhile isBlank) (Json.skipBlanks cursor.rest)

/-- A literal whose opening quote has been read: its characters up to and including the closing quote, and the rest. A
backslash takes the character after it along. The offset is where the walk stands when there is no closing quote. -/
def endOfString : (offset : Nat) → List Char → Except Stop (List Char × List Char)
  | offset, [] => .error ⟨offset, .unterminatedString⟩
  | _, '"' :: rest => .ok (['"'], rest)
  | offset, '\\' :: [] => .error ⟨offset + 2, .unterminatedString⟩
  | offset, '\\' :: c :: rest =>
    (endOfString (offset + 1 + c.utf8Size) rest).map fun (taken, after) => ('\\' :: c :: taken, after)
  | offset, c :: rest => (endOfString (offset + c.utf8Size) rest).map fun (taken, after) => (c :: taken, after)

/-- A literal at a cursor that stands in front of its opening quote: the literal, and the cursor behind it. -/
def readLiteral (cursor : Cursor) (rest : List Char) : Except Stop (List Char × Cursor) :=
  (endOfString (cursor.offset + 1) rest).map fun (taken, after) =>
    ('"' :: taken, cursor.past ('"' :: taken) after)

/-- Whether a character ends a number or word. -/
def endsScalar (c : Char) : Bool := c == ',' || c == '\x7d' || c == ']' || isBlank c

/-- The literals recorded so far, later ones first. -/
abbrev Found := List (KeyPath × Span)

mutual

/-- Walks a value at a path, or inside a list when there is no path; `room` bounds the steps. -/
def walkValue : (room : Nat) → Option KeyPath → Cursor → Found → Except Stop (Cursor × Found)
  | 0, _, cursor, _ => .error ⟨cursor.offset, .endOfInput⟩
  | room + 1, path, cursor, found =>
    let cursor := cursor.skipBlanks
    match cursor.rest with
    | [] => .error ⟨cursor.offset, .endOfInput⟩
    | '\x7b' :: rest =>
      let inside := (cursor.past ['\x7b'] rest).skipBlanks
      match inside.rest with
      | '\x7d' :: after => .ok (inside.past ['\x7d'] after, found)
      | _ => walkMembers room path inside found
    | '[' :: rest =>
      let inside := (cursor.past ['['] rest).skipBlanks
      match inside.rest with
      | ']' :: after => .ok (inside.past [']'] after, found)
      | _ => walkItems room inside found
    | '"' :: rest =>
      match readLiteral cursor rest with
      | .error stop => .error stop
      | .ok (_, after) =>
        match path with
        | some path => .ok (after, (path, ⟨cursor.offset, after.offset⟩) :: found)
        | none => .ok (after, found)
    | c :: rest =>
      if endsScalar c then .error ⟨cursor.offset, .expectedValue⟩
      else
        let ends (c : Char) : Bool := !endsScalar c
        .ok (cursor.past ((c :: rest).takeWhile ends) ((c :: rest).dropWhile ends), found)

/-- Walks the members of an object from a key on. -/
def walkMembers : (room : Nat) → Option KeyPath → Cursor → Found → Except Stop (Cursor × Found)
  | 0, _, cursor, _ => .error ⟨cursor.offset, .endOfInput⟩
  | room + 1, path, cursor, found =>
    let cursor := cursor.skipBlanks
    match cursor.rest with
    | '"' :: rest =>
      match readLiteral cursor rest with
      | .error stop => .error stop
      | .ok (written, behind) =>
        match literalValue? written with
        | none => .error ⟨behind.offset, .invalidKey⟩
        | some key =>
          let colon := behind.skipBlanks
          match colon.rest with
          | ':' :: rest =>
            match walkValue room (path.map (· ++ [key])) (colon.past [':'] rest) found with
            | .error stop => .error stop
            | .ok (behind, found) =>
              let next := behind.skipBlanks
              match next.rest with
              | ',' :: rest => walkMembers room path (next.past [','] rest) found
              | '\x7d' :: rest => .ok (next.past ['\x7d'] rest, found)
              | _ => .error ⟨next.offset, .expectedObjectEnd⟩
          | _ => .error ⟨colon.offset, .expectedColon⟩
    | _ => .error ⟨cursor.offset, .expectedKey⟩

/-- Walks the items of a list from a value on. -/
def walkItems : (room : Nat) → Cursor → Found → Except Stop (Cursor × Found)
  | 0, cursor, _ => .error ⟨cursor.offset, .endOfInput⟩
  | room + 1, cursor, found =>
    match walkValue room none cursor found with
    | .error stop => .error stop
    | .ok (behind, found) =>
      let next := behind.skipBlanks
      match next.rest with
      | ',' :: rest => walkItems room (next.past [','] rest) found
      | ']' :: rest => .ok (next.past [']'] rest, found)
      | _ => .error ⟨next.offset, .expectedListEnd⟩

end

/-- Every literal of a text that stands on a path of keys, later ones first. -/
def walk (start : Nat) (text : List Char) : Except Stop Found :=
  match walkValue (2 * text.length + 1) (some []) ⟨start, text⟩ [] with
  | .error stop => .error stop
  | .ok (cursor, found) =>
    let behind := cursor.skipBlanks
    if behind.rest = [] then .ok found else .error ⟨behind.offset, .trailingCharacters⟩

/-- The span recorded last for a path. -/
def Found.span? (found : Found) (path : KeyPath) : Option Span := List.lookup path found

/-- The characters of a text before a byte and from it on, when the byte begins a character or ends the text. -/
def splitAtByte? : (size : Nat) → List Char → Option (List Char × List Char)
  | 0, cs => some ([], cs)
  | _, [] => none
  | size, c :: rest =>
    if size < c.utf8Size then none
    else (splitAtByte? (size - c.utf8Size) rest).map fun (before, after) => (c :: before, after)

/-- The characters of a span, when it falls on character boundaries of the text. -/
def slice? (text : List Char) (span : Span) : Option (List Char) := do
  let (_, fromStart) ← splitAtByte? span.start text
  guard (span.start ≤ span.stop)
  let (inside, _) ← splitAtByte? (span.stop - span.start) fromStart
  return inside

/-- The text with a span replaced, when the span falls on character boundaries of the text. -/
def splice? (text : List Char) (span : Span) (replacement : List Char) : Option (List Char) := do
  let (before, fromStart) ← splitAtByte? span.start text
  guard (span.start ≤ span.stop)
  let (_, after) ← splitAtByte? (span.stop - span.start) fromStart
  return before ++ replacement ++ after

end Span

end SealedConfig.Json
