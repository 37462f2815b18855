import SealedConfig.Encoding.Base64
import SealedConfig.Text.Blank
import SealedConfig.Text.Lines

/-!
# Armor of encrypted files

The text form of an encrypted file: base 64 in lines of sixty-four symbols between two marker lines. A reader takes the
lines one by one as their bytes are asked for, so a bad line spoils only what comes after it; a text without the opening
line counts as its own bytes.
-/

namespace SealedConfig.Age.Armor

/-- The opening line. -/
def opening : String := "-----BEGIN AGE ENCRYPTED FILE-----"

/-- The closing line. -/
def closing : String := "-----END AGE ENCRYPTED FILE-----"

/-- How many symbols a whole line has. -/
def columns : Nat := 64

/-- Whether a text, blanks in front aside, starts like an armored file. -/
def isArmored (text : String) : Bool := opening.toList.isPrefixOf (trimStart text.toList)

/-- Bytes that can be read, and whether reading on from there fails. -/
structure Readable where
  bytes : Bytes
  isBroken : Bool
  deriving DecidableEq, Repr

/-- More bytes in front of what can be read. -/
def Readable.prepend (bytes : Bytes) (more : Readable) : Readable := ⟨bytes ++ more.bytes, more.isBroken⟩

/-- Nothing more, because of a fault. -/
def Readable.broken : Readable := ⟨[], true⟩

/-- A line without the carriage return that may end it. -/
def dropReturn (line : List Char) : List Char :=
  if line.getLast? = some '\r' then line.dropLast else line

/-- The bytes of the lines behind the opening one. A line is whole, except for one shorter line at the end; behind the
closing line only blanks may follow. -/
def ofLines (shortSeen : Bool) : List (List Char) → Readable
  | [] => .broken
  | raw :: rest =>
    -- the last line is the one that no line feed ends
    let line := if rest.isEmpty then raw else dropReturn raw
    if '\r' ∈ line then .broken
    else if line = closing.toList then ⟨[], !(rest.all fun more => more.all isBlank)⟩
    else if rest.isEmpty ∧ line = [] then .broken
    else if columns < line.length ∨ shortSeen then .broken
    else
      match Base64.standard.decode (String.ofList line) with
      | .error _ => .broken
      | .ok bytes => (ofLines (line.length < columns) rest).prepend bytes

/-- What can be read of a text: the bytes between the marker lines, or else the bytes of the text itself. -/
def read (text : String) : Readable :=
  let plain : Readable := ⟨Bytes.ofText text, false⟩
  match lines text.toList with
  | first :: second :: rest => if dropReturn first = opening.toList then ofLines false (second :: rest) else plain
  | _ => plain

/-- The symbols cut into lines, each ended by a line feed. -/
def wrap : (room : Nat) → List Char → List Char
  | 0, _ => []
  | _, [] => []
  | room + 1, c :: symbols =>
    (c :: symbols).take columns ++ '\n' :: wrap room ((c :: symbols).drop columns)

/-- The armor of a byte string. -/
def write (bytes : Bytes) : String :=
  let symbols := (Base64.standard.encode bytes).toList
  opening ++ "\n" ++ String.ofList (wrap symbols.length symbols) ++ closing ++ "\n"

end SealedConfig.Age.Armor
