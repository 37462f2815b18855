import SealedConfig.Crypto.Sha256
import SealedConfig.Section.Bind

/-!
# API keys

The principals that a document lists. A secret that does not open is kept as it is stored and never authenticates, so
that one bad record does not lock out the others.
-/

namespace SealedConfig

open Json (RecordField)

/-- A principal: its name, the identifier it presents, and its secret. -/
structure ApiKey where
  name : String
  key : String
  secret : String
  deriving DecidableEq, Repr

namespace ApiKey

/-- The section that lists the keys. -/
def sectionName : String := "ApiKeys"

/-- The fields of a record. -/
def fields : List RecordField :=
  [⟨"name", "Name", false, true⟩, ⟨"key", "Key", false, true⟩, ⟨"secret", "Secret", false, false⟩]

/-- The key of a record. -/
def ofJson? (tree : Json) : Option ApiKey :=
  (Json.recordValues? fields tree).map fun values =>
    ⟨Options.textAt values 0, Options.textAt values 1, Options.textAt values 2⟩

/-- The keys of a list of records. -/
def ofItems? : List Json → Option (List ApiKey)
  | [] => some []
  | item :: items =>
    match ofJson? item, ofItems? items with
    | some key, some keys => some (key :: keys)
    | _, _ => none

/-- The keys of a document as they are stored; a section that is missing or null lists none. -/
def ofDocument (doc : Document) : Except Section.Fault (List ApiKey) :=
  match doc.get? (KeyPath.parse sectionName) with
  | none => .ok []
  | some .null => .ok []
  | some (.array items) =>
    match ofItems? items with
    | some keys => .ok keys
    | none => .error (.shape sectionName "a list of API keys")
  | some _ => .error (.shape sectionName "a list of API keys")

/-- The key with its secret opened, when that is marked and opens. -/
def disclose (p : Protector) (key : ApiKey) : ApiKey :=
  if Envelope.isMarked key.secret then
    match Envelope.disclose p key.secret with
    | .ok plain => { key with secret := plain }
    | .error _ => key
  else key

/-- The keys with their secrets opened, record by record. -/
def discloseAll (p : Protector) (keys : List ApiKey) : List ApiKey := keys.map (disclose p)

/-- The digest that secrets are compared by. -/
def digest (secret : String) : Bytes := Sha256.hash (Bytes.ofText secret)

/-- Whether a key answers to what was presented; an empty secret or one that is still marked never does. -/
def answers (presentedKey presentedSecret : String) (key : ApiKey) : Bool :=
  key.key == presentedKey && key.secret != "" && !Envelope.isMarked key.secret &&
    digest key.secret == digest presentedSecret

/-- The first key that answers to what was presented. -/
def authenticate? (keys : List ApiKey) (presentedKey presentedSecret : String) : Option ApiKey :=
  keys.find? (answers presentedKey presentedSecret)

/-- A key with its fields under their names. -/
def toJson (key : ApiKey) : Json :=
  .object [("Name", .string key.name), ("Key", .string key.key), ("Secret", .string key.secret)]

/-- What a key shows of itself. -/
def shown (key : ApiKey) : String :=
  "ApiKey \x7b name: " ++ quoted key.name ++ ", key: " ++ quoted key.key ++ ", .. \x7d"

end ApiKey

end SealedConfig
