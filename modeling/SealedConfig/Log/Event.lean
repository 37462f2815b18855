import SealedConfig.Text.Quoted

/-!
# Log events

What a run tells of itself besides its answers: a level, a fixed message and named values. Values are paths, names and
counts, never secrets.
-/

namespace SealedConfig.Log

/-- How urgent an event is, the most urgent first. -/
inductive Level where
  | error
  | warning
  | information
  | debugging
  | detail
  deriving DecidableEq, Repr

/-- The rank of a level, 1 for the most urgent. -/
def Level.rank : Level → Nat
  | .error => 1
  | .warning => 2
  | .information => 3
  | .debugging => 4
  | .detail => 5

/-- The label of a level, five columns wide. -/
def Level.label : Level → String
  | .error => "ERROR"
  | .warning => " WARN"
  | .information => " INFO"
  | .debugging => "DEBUG"
  | .detail => "TRACE"

/-- The colour of a level's label at a terminal. -/
def Level.colour : Level → Nat
  | .error => 31
  | .warning => 33
  | .information => 32
  | .debugging => 34
  | .detail => 35

/-- A named value: shown as it is, or between quotes. -/
structure Field where
  name : String
  shown : String
  deriving DecidableEq, Repr

/-- A value shown as it is. -/
def plain (name value : String) : Field := ⟨name, value⟩

/-- A count. -/
def count (name : String) (value : Nat) : Field := ⟨name, toString value⟩

/-- A value shown between quotes. -/
def inQuotes (name value : String) : Field := ⟨name, quoted value⟩

/-- Something to tell. -/
structure Event where
  level : Level
  message : String
  fields : List Field
  deriving DecidableEq, Repr

/-- A text under an attribute of the terminal. -/
def painted (code : Nat) (text : String) : String := s!"\x1b[{code}m" ++ text ++ "\x1b[0m"

/-- The line of an event. -/
def Event.line (isPainted : Bool) (event : Event) : String :=
  let paint (code : Nat) (text : String) : String := if isPainted then painted code text else text
  let field (f : Field) : String := " " ++ paint 3 f.name ++ paint 2 "=" ++ f.shown
  paint event.level.colour event.level.label ++ " " ++ event.message ++ String.join (event.fields.map field) ++ "\n"

end SealedConfig.Log
