import SealedConfig.Document.Scan

/-!
# Bulk operations

Encrypting or decrypting every secret of a document at once: the two operations, what they report, and why they fail.
-/

namespace SealedConfig

/-- What is done to the secrets of a document. -/
inductive Operation where
  | encrypt
  | decrypt
  deriving DecidableEq, Repr

/-- The name of an operation. -/
def Operation.name : Operation → String
  | .encrypt => "encrypt"
  | .decrypt => "decrypt"

/-- The secrets that an operation is for. -/
def Operation.targets : Operation → Scan → Scan
  | .encrypt, scan => scan.plain
  | .decrypt, scan => scan.encrypted

/-- What a finished operation did: the fields it changed, and the copy it made of the document before. -/
structure Report where
  operation : Operation
  fields : List String
  backup : Option String
  deriving DecidableEq, Repr

namespace Report

/-- The report of an operation that found nothing to do. -/
def idle (operation : Operation) : Report := ⟨operation, [], none⟩

/-- Whether nothing was done. -/
def isIdle (report : Report) : Bool := report.fields.isEmpty

/-- The ending of a noun that a number of things has. -/
def plural (n : Nat) : String := if n = 1 then "" else "s"

/-- A report in one line. -/
def message (report : Report) : String :=
  let n := report.fields.length
  match report.operation with
  | .encrypt => if n = 0 then "No plain text secrets found" else s!"Encrypted {n} secret{plural n}"
  | .decrypt => if n = 0 then "No encrypted secrets found" else s!"Decrypted {n} secret{plural n}"

end Report

/-- Why an operation did not finish; the document is then as it was. -/
inductive BulkFault where
  | locked (path : String) (fault : FileFault)
  | notConfirmed (count : Nat)
  | backupFailed (path : String) (fault : FileFault)
  | cancelled (path : String) (done total : Nat)
  | field (operation : Operation) (path : KeyPath) (source : Envelope.Fault)
  | unwritable (path : String) (fault : FileFault)
  deriving DecidableEq, Repr

/-- The wording of such a fault. -/
def BulkFault.message : BulkFault → String
  | .locked path fault => s!"failed to lock {path}: {fault.message}"
  | .notConfirmed count => s!"decrypting {count} secrets writes plaintext to disk and must be confirmed"
  | .backupFailed path fault => s!"backup of {path} failed, nothing was changed: {fault.message}"
  | .cancelled path done total => s!"rewrite cancelled after {done} of {total} fields, {path} was not modified"
  | .field operation path source => s!"failed to {operation.name} secret at {path.display}: {source.message}"
  | .unwritable path fault => s!"failed to write {path}: {fault.message}"

end SealedConfig
