import SealedConfig.Json.Basic

/-!
# Writing JSON text

A string is written with the shortest escapes and otherwise as it is. Trees are written indented by two blanks a level,
as for a reader at a terminal.
-/

namespace SealedConfig.Json

/-- The lower-case hexadecimal digit of a value below sixteen. -/
def hexDigit (n : Nat) : Char := if n < 10 then Char.ofNat (48 + n) else Char.ofNat (87 + n)

/-- How a character is written inside a string. -/
def escapeChar (c : Char) : List Char :=
  if c = '"' then ['\\', '"']
  else if c = '\\' then ['\\', '\\']
  else if c = '\x08' then ['\\', 'b']
  else if c = '\x0c' then ['\\', 'f']
  else if c = '\n' then ['\\', 'n']
  else if c = '\r' then ['\\', 'r']
  else if c = '\t' then ['\\', 't']
  else if c.toNat < 0x20 then ['\\', 'u', '0', '0', hexDigit (c.toNat / 16), hexDigit (c.toNat % 16)]
  else [c]

/-- The literal of a string, quotes included. -/
def literal (value : String) : List Char := '"' :: value.toList.flatMap escapeChar ++ ['"']

/-- The spelling of a number. -/
def Number.spelling : Number → String
  | .integer n => toString n
  | .decimal spelling => spelling

/-- A line end and the blanks of a level of indentation. -/
def newLine (level : Nat) : String := "\n" ++ String.ofList (List.replicate (2 * level) ' ')

mutual

/-- A tree written over several lines at a level of indentation. -/
def render (level : Nat) : Json → String
  | .null => "null"
  | .bool true => "true"
  | .bool false => "false"
  | .number n => n.spelling
  | .string s => String.ofList (literal s)
  | .array [] => "[]"
  | .array (item :: items) =>
    "[" ++ newLine (level + 1) ++ render (level + 1) item ++ renderItems (level + 1) items ++ newLine level ++ "]"
  | .object [] => "\x7b\x7d"
  | .object ((key, value) :: members) =>
    "\x7b" ++ newLine (level + 1) ++ String.ofList (literal key) ++ ": " ++ render (level + 1) value ++
      renderMembers (level + 1) members ++ newLine level ++ "\x7d"

/-- The items of a list after the first one. -/
def renderItems (level : Nat) : List Json → String
  | [] => ""
  | item :: items => "," ++ newLine level ++ render level item ++ renderItems level items

/-- The members of an object after the first one. -/
def renderMembers (level : Nat) : List (String × Json) → String
  | [] => ""
  | (key, value) :: members =>
    "," ++ newLine level ++ String.ofList (literal key) ++ ": " ++ render level value ++ renderMembers level members

end

/-- A tree written over several lines. -/
def pretty (tree : Json) : String := tree.render 0

end SealedConfig.Json
