import SealedConfig.Failure
import SealedConfig.Host.Basic

/-!
# Runs

A run is a computation on a host that may fail. The steps that runs are made of are those of the host, with their faults
turned into failures.
-/

namespace SealedConfig

/-- A computation on a host that may fail. -/
abbrev Run (m : Type → Type) (α : Type) := ExceptT Failure m α

namespace Run

variable {m : Type → Type} [Host m] {α ε : Type}

/-- A step of the host that cannot fail. -/
def step (operation : m α) : Run m α := ExceptT.lift operation

/-- A step of the host, its fault turned into a failure. -/
def attempt (failure : ε → Failure) (operation : m (Except ε α)) : Run m α :=
  ExceptT.mk ((fun result => result.mapError failure) <$> operation)

/-- A result that needs no host, its fault turned into a failure. -/
def settle (failure : ε → Failure) (result : Except ε α) : Run m α := ExceptT.mk (pure (result.mapError failure))

/-- A run that fails. -/
def fail (failure : Failure) : Run m α := throw failure

/-- Whether a path leads anywhere. -/
def pathExists (path : String) : Run m Bool := step (Host.pathExists path)

/-- Whether a path leads to a file. -/
def isFile (path : String) : Run m Bool := step (Host.isFile path)

/-- Fresh random bytes. -/
def random (n : Nat) : Run m (Vector UInt8 n) := step (Host.random n)

/-- The time of day. -/
def now : Run m Moment := do
  match ← step Host.now with
  | some moment => return moment
  | none => fail .noTime

/-- Writes to standard output. -/
def print (text : String) : Run m Unit := step (Host.print text)

/-- Writes to standard error. -/
def complain (text : String) : Run m Unit := step (Host.complain text)

/-- Tells an event that helps to find a fault. -/
def debug (message : String) (fields : List Log.Field) : Run m Unit := step (Host.log ⟨.debugging, message, fields⟩)

/-- Tells an event that a user may want to know. -/
def inform (message : String) (fields : List Log.Field) : Run m Unit := step (Host.log ⟨.information, message, fields⟩)

/-- Tells an event that a user should know. -/
def warn (message : String) (fields : List Log.Field) : Run m Unit := step (Host.log ⟨.warning, message, fields⟩)

/-- The envelope of a text under a fresh nonce; an empty text takes none. -/
def enclose (p : Protector) (plain : String) : Run m String :=
  if plain = "" then return "" else do return Envelope.enclose p (← random 12) plain

/-- The text in an envelope. -/
def disclose (p : Protector) (value : String) : Run m String := settle .envelope (Envelope.disclose p value)

end Run

end SealedConfig
