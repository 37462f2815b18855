/-!
# Faults of JSON text

What a reader found wrong and where it stood. A place is kept as the number of bytes that were left, which does not
change while a reader passes its rest along; line and column are computed from the whole text at the end.
-/

namespace SealedConfig.Json

/-- What is wrong with a text that is no JSON. -/
inductive Cause where
  | eofList
  | eofObject
  | eofString
  | eofValue
  | expectedColon
  | expectedListEnd
  | expectedObjectEnd
  | expectedWord
  | expectedValue
  | invalidEscape
  | invalidNumber
  | numberRange
  | controlCharacter
  | keyNotString
  | loneSurrogate
  | trailingComma
  | trailingCharacters
  | unfinishedEscape
  | nestingLimit
  deriving DecidableEq, Repr

/-- The wording of a cause. -/
def Cause.message : Cause → String
  | .eofList => "EOF while parsing a list"
  | .eofObject => "EOF while parsing an object"
  | .eofString => "EOF while parsing a string"
  | .eofValue => "EOF while parsing a value"
  | .expectedColon => "expected `:`"
  | .expectedListEnd => "expected `,` or `]`"
  | .expectedObjectEnd => "expected `,` or `\x7d`"
  | .expectedWord => "expected ident"
  | .expectedValue => "expected value"
  | .invalidEscape => "invalid escape"
  | .invalidNumber => "invalid number"
  | .numberRange => "number out of range"
  | .controlCharacter => "control character (\\u0000-\\u001F) found while parsing a string"
  | .keyNotString => "key must be a string"
  | .loneSurrogate => "lone leading surrogate in hex escape"
  | .trailingComma => "trailing comma"
  | .trailingCharacters => "trailing characters"
  | .unfinishedEscape => "unexpected end of hex escape"
  | .nestingLimit => "recursion limit exceeded"

/-- How many bytes characters take in UTF-8. -/
def utf8Length (cs : List Char) : Nat := cs.foldr (fun c length => c.utf8Size + length) 0

/-- A cause, and how many bytes were left where it was noticed. -/
structure Fault where
  cause : Cause
  left : Nat
  deriving DecidableEq, Repr

namespace Fault

/-- A fault noticed in front of the rest of a text. -/
def before (cause : Cause) (rest : List Char) : Fault := ⟨cause, utf8Length rest⟩

/-- A fault noticed at the first byte of the rest of a text. -/
def here (cause : Cause) (rest : List Char) : Fault := ⟨cause, utf8Length rest - 1⟩

/-- Line, from 1, and column, in bytes, after the first `size` bytes of characters. -/
def locate : (size line column : Nat) → List Char → Nat × Nat
  | 0, line, column, _ => (line, column)
  | _, line, column, [] => (line, column)
  | size, line, column, c :: rest =>
    if size < c.utf8Size then (line, column + size)
    else if c = '\n' then locate (size - c.utf8Size) (line + 1) 0 rest
    else locate (size - c.utf8Size) line (column + c.utf8Size) rest

/-- The line and the column of a fault in a text. -/
def place (fault : Fault) (text : List Char) : Nat × Nat := locate (utf8Length text - fault.left) 1 0 text

end Fault

end SealedConfig.Json
