import SealedConfig.Document.Basic
import SealedConfig.Envelope
import SealedConfig.Section.Basic
import SealedConfig.Text.Quoted

/-!
# Binding a section

A section is read as its type and then every field that is marked is opened; if one does not open, nothing is bound. A
section that is missing binds like an empty one.
-/

namespace SealedConfig.Section

open Json (RecordField)

/-- Why a section is not bound. -/
inductive Fault where
  | shape (sectionName expected : String)
  | undecipherable (typeName field : String) (source : Envelope.Fault)
  deriving DecidableEq, Repr

/-- The wording of a fault; what the section holds is not told. -/
def Fault.message : Fault → String
  | .shape sectionName expected => s!"section {sectionName} could not be bound as {expected}: Data error"
  | .undecipherable typeName field source => s!"failed to decrypt {typeName}.{field}: {source.message}"

/-- What a field holds after opening: the text in its envelope when it is marked. -/
def discloseValue (p : Protector) : Option String → Except Envelope.Fault (Option String)
  | none => .ok none
  | some text => if Envelope.isMarked text then (Envelope.disclose p text).map some else .ok (some text)

/-- What the fields hold after opening, or the first field in order that does not open. -/
def discloseValues (p : Protector) (typeName : String) :
    List RecordField → List (Option String) → Except Fault (List (Option String))
  | field :: fields, value :: values =>
    match discloseValue p value with
    | .error source => .error (.undecipherable typeName field.name source)
    | .ok held => (discloseValues p typeName fields values).map (held :: ·)
  | _, _ => .ok []

/-- The section of a document, opened, as a value of its type. -/
def bind (α : Type) [Options α] (doc : Document) (sectionName : String) (p : Protector) : Except Fault α :=
  let node := (doc.get? (KeyPath.parse sectionName)).getD (.object [])
  match Json.recordValues? (Options.fields α) node with
  | none => .error (.shape sectionName (Options.typeName α))
  | some values => (discloseValues p (Options.typeName α) (Options.fields α) values).map Options.ofValues

/-- A section with its fields under their keys. -/
def toJson {α : Type} [Options α] (options : α) : Json :=
  .object (((Options.fields α).zip (Options.toValues options)).map fun (field, value) =>
    (field.key, value.elim Json.null Json.string))

/-- What a section shows of itself: the fields that hold no secret. -/
def shown {α : Type} [Options α] (options : α) : String :=
  let fields := ((Options.fields α).zip (Options.toValues options)).filter fun (field, _) => field.isShown
  let texts := fields.map fun (field, value) => field.name ++ ": " ++ quoted (value.getD "") ++ ", "
  Options.typeName α ++ " \x7b " ++ String.join texts ++ ".. \x7d"

end SealedConfig.Section
