import SealedConfig.Json.Basic

/-!
# Records of texts

A record has a fixed list of text fields. It is read from an object by the fields' keys, other members being ignored, or
from a list that fills the fields in order and is not longer than they are. A field that is not given is empty, and one
that is optional may also be null.
-/

namespace SealedConfig.Json

/-- A field of a record: its name, its key in an object, whether it may be absent, and whether it may be shown. -/
structure RecordField where
  name : String
  key : String
  isOptional : Bool
  isShown : Bool
  deriving DecidableEq, Repr

namespace RecordField

/-- What a field that is not given holds. -/
def absent (field : RecordField) : Option String := if field.isOptional then none else some ""

/-- What a field holds when a value is given for it; nothing else but a text will do, or null for an optional one. -/
def ofValue? (field : RecordField) : Json → Option (Option String)
  | .string text => some (some text)
  | .null => if field.isOptional then some none else none
  | _ => none

/-- What a field holds, given its value or none. -/
def ofGiven? (field : RecordField) : Option Json → Option (Option String)
  | some value => field.ofValue? value
  | none => some field.absent

end RecordField

/-- What the fields hold when the items of a list fill them in order. -/
def fillInOrder? : List RecordField → List Json → Option (List (Option String))
  | [], [] => some []
  | [], _ :: _ => none
  | field :: fields, [] => (fillInOrder? fields []).map (field.absent :: ·)
  | field :: fields, item :: items =>
    match field.ofValue? item, fillInOrder? fields items with
    | some held, some more => some (held :: more)
    | _, _ => none

/-- What the fields hold when members give them by key. -/
def fillByKey? (members : Members) : List RecordField → Option (List (Option String))
  | [] => some []
  | field :: fields =>
    match field.ofGiven? (members.lookup field.key), fillByKey? members fields with
    | some held, some more => some (held :: more)
    | _, _ => none

/-- What the fields of a record hold in a tree, one for each field, when the tree is such a record. -/
def recordValues? (fields : List RecordField) : Json → Option (List (Option String))
  | .object members => fillByKey? members fields
  | .array items => fillInOrder? fields items
  | _ => none

end SealedConfig.Json
