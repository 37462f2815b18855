import SealedConfig.Log.Event
import SealedConfig.Text.Blank

/-!
# Which log events are told

A filter is a list of directives separated by commas, each a level, a target, or a target with a level. Of the
directives whose target begins the program's name the longest one counts.
-/

namespace SealedConfig.Log

/-- The level up to which events of a target are told, 0 for none. -/
structure Directive where
  target : String
  level : Nat
  deriving DecidableEq, Repr

/-- Directives, and whether lines are painted. -/
structure Filter where
  directives : List Directive
  isPainted : Bool
  deriving DecidableEq, Repr

/-- The filter that tells nothing. -/
def Filter.silent : Filter := ⟨[], false⟩

/-- The name that targets are matched with. -/
def programName : String := "strongbox"

/-- The level that a word or a digit names. -/
def levelOf? (word : String) : Option Nat :=
  match word.toLower with
  | "off" | "0" => some 0
  | "error" | "1" => some 1
  | "warn" | "2" => some 2
  | "info" | "3" => some 3
  | "debug" | "4" => some 4
  | "trace" | "5" => some 5
  | _ => none

/-- Whether a character may stand in a target. -/
def isTargetChar (c : Char) : Bool := c.isAlphanum || c == '_' || c == ':' || c == '-'

/-- The directive of a piece of a filter text. -/
def directiveOf? (piece : String) : Option Directive :=
  let text := (trim piece).toList
  let target := text.takeWhile (· ≠ '=')
  let name := String.ofList target
  if !(target.all isTargetChar) then none
  else
    match text.dropWhile (· ≠ '=') with
    | [] =>
      match levelOf? name with
      | some level => some ⟨"", level⟩
      | none => some ⟨name, 5⟩
    | _ :: word => (levelOf? (String.ofList word)).map fun level => ⟨name, level⟩

/-- The pieces of a text between commas, empty ones left out. -/
def pieces (text : String) : List String := (text.splitOn ",").filter (· ≠ "")

/-- The directives of a filter text; an empty text lets errors through. -/
def directivesOf? (text : String) : Option (List Directive) :=
  match pieces text with
  | [] => some [⟨"", 1⟩]
  | all => all.mapM directiveOf?

/-- The level up to which a filter lets events through. -/
def Filter.level (filter : Filter) : Nat :=
  let matching := filter.directives.filter fun d => d.target.toList.isPrefixOf programName.toList
  let best := matching.foldl (fun (best : Option Directive) d =>
    match best with
    | some b => if b.target.length ≤ d.target.length then some d else some b
    | none => some d) none
  best.elim 0 Directive.level

/-- Whether an event is told. -/
def Filter.admits (filter : Filter) (event : Event) : Bool := event.level.rank ≤ filter.level

end SealedConfig.Log
