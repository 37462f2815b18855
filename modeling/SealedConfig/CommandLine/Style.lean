import SealedConfig.Log.Event
import SealedConfig.Run

/-!
# Output at a terminal

Answers go to standard output; errors, warnings and hints to standard error, so that answers can be piped. Colours are
used unless the user forbids them and only where they show, or where the user forces them.
-/

namespace SealedConfig.CommandLine

/-- Whether texts are painted. -/
structure Style where
  isPainted : Bool
  deriving DecidableEq, Repr

variable {m : Type → Type} [Host m]

/-- The style that the environment asks for. -/
def Style.ofEnvironment : m Style := do
  let forbidden := (← Host.envValue? "NO_COLOR").isSome
  let wanted := (← Host.envValue? "CLICOLOR").getD "1" != "0"
  let forced := (← Host.envValue? "CLICOLOR_FORCE").getD "0" != "0"
  let shows ← Host.hasColours
  return ⟨!forbidden && ((shows && wanted) || forced)⟩

namespace Style

variable (style : Style)

/-- A text under an attribute of the terminal. -/
def paint (code : Nat) (text : String) : String := if style.isPainted then Log.painted code text else text

/-- A path or the name of a field. -/
def named (text : String) : String := style.paint 36 text

/-- A remark. -/
def dim (text : String) : String := style.paint 2 text

/-- A text that needs attention. -/
def caution (text : String) : String := style.paint 33 text

/-- A line about something done. -/
def success (message : String) : Run m Unit := Run.print (style.paint 32 "✓" ++ " " ++ message ++ "\n")

/-- A line about something that went wrong. -/
def error (message : String) : Run m Unit := Run.complain (style.paint 31 "✗" ++ " " ++ message ++ "\n")

/-- A line about something to beware of. -/
def warning (message : String) : Run m Unit := Run.complain (style.paint 33 "⚠" ++ " " ++ message ++ "\n")

/-- A line about what to do next. -/
def hint (message : String) : Run m Unit :=
  Run.complain (style.paint 36 "→" ++ " " ++ style.paint 36 message ++ "\n")

/-- A remark on a line of its own. -/
def remark (message : String) : Run m Unit := Run.print (style.dim message ++ "\n")

/-- A labelled value. -/
def labelled (label value : String) : Run m Unit :=
  Run.print ("  " ++ style.dim label ++ "  " ++ style.paint 1 value ++ "\n")

/-- How wide the line under a title is. -/
def ruleWidth : Nat := 56

/-- A title with a line under it. -/
def title (text : String) : Run m Unit :=
  Run.print ("\n" ++ style.paint 1 text ++ "\n" ++
    style.dim (String.ofList (List.replicate ruleWidth '─')) ++ "\n")

end Style

/-- An item of a list. -/
def printItem (text : String) : Run m Unit := Run.print ("  • " ++ text ++ "\n")

/-- A tree as an answer. -/
def printJson (tree : Json) : Run m Unit := Run.print (tree.pretty ++ "\n")

end SealedConfig.CommandLine
