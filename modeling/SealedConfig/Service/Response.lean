import SealedConfig.Failure

/-!
# Requests and responses

What an administrative surface is asked and what it answers: single values, bulk operations and named secrets. A refusal
has a status like those of the web and tells only what a failure's message tells.
-/

namespace SealedConfig

open Json (RecordField)

/-- A value to seal or open, and a label that is not interpreted. -/
structure SecretRequest where
  key : String
  value : String
  deriving DecidableEq, Repr

namespace SecretRequest

/-- The fields of a request. -/
def fields : List RecordField := [⟨"key", "key", false, true⟩, ⟨"value", "value", false, false⟩]

/-- The request of a record. -/
def ofJson? (tree : Json) : Option SecretRequest :=
  (Json.recordValues? fields tree).map fun values => ⟨Options.textAt values 0, Options.textAt values 1⟩

end SecretRequest

namespace Service

/-- The warning beside a plain secret. -/
def sensitive : String := "This is sensitive information!"

/-- A sealed value. -/
structure Sealed where
  key : String
  encrypted : String
  deriving DecidableEq, Repr

/-- An opened value. -/
structure Opened where
  key : String
  decrypted : String
  deriving DecidableEq, Repr

/-- A finished bulk operation. -/
structure Finished where
  report : Report
  deriving DecidableEq, Repr

/-- A named secret of a document, and whether it was stored in an envelope. -/
structure NamedSecret where
  key : String
  value : String
  wasEncrypted : Bool
  deriving DecidableEq, Repr

/-- The form of a sealed value. -/
def Sealed.toJson (response : Sealed) : Json :=
  .object [("key", .string response.key), ("encrypted", .string response.encrypted),
    ("message", .string "Copy this encrypted value to your configuration file")]

/-- The form of an opened value. -/
def Opened.toJson (response : Opened) : Json :=
  .object [("key", .string response.key), ("decrypted", .string response.decrypted), ("warning", .string sensitive)]

/-- What is to be done after a bulk operation. -/
def Finished.warning (response : Finished) : String :=
  match response.report.operation with
  | .encrypt => "Application restart required for changes to take effect"
  | .decrypt => "Secrets are now in plain text! Re-encrypt before committing."

/-- The form of a finished bulk operation. -/
def Finished.toJson (response : Finished) : Json :=
  let report := response.report
  .object [("success", .bool true), ("message", .string report.message), ("keys", .array (report.fields.map .string)),
    ("backupPath", report.backup.elim .null .string),
    ("warning", if report.isIdle then .null else .string response.warning)]

/-- The form of a named secret. -/
def NamedSecret.toJson (response : NamedSecret) : Json :=
  .object [("key", .string response.key), ("value", .string response.value),
    ("wasEncrypted", .bool response.wasEncrypted), ("warning", .string sensitive)]

/-- A request that was not granted. -/
structure Refusal where
  status : Nat
  reason : String
  deriving DecidableEq, Repr

/-- The status that a failure amounts to. -/
def statusOf : Failure → Nat
  | .envelope _ => 400
  | .fileCipher .head => 400
  | .binding (.undecipherable _ _ _) => 400
  | .document (.missing _) => 404
  | .document (.noText _) => 404
  | .document _ => 400
  | .bulk (.notConfirmed _) => 409
  | .bulk (.field _ _ _) => 400
  | _ => 500

/-- The refusal that a failure amounts to. -/
def Refusal.ofFailure (failure : Failure) : Refusal := ⟨statusOf failure, failure.message⟩

/-- A refusal in one line. -/
def Refusal.message (refusal : Refusal) : String := s!"{refusal.status} {refusal.reason}"

end Service

end SealedConfig
