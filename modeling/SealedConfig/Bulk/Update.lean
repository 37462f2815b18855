import SealedConfig.Document.Load
import SealedConfig.Host.Files

/-!
# Updating a document

One run over a document at a time, under its lock: the document is read, its secrets are found, a copy is made that
replaces nothing, every secret is sealed or opened, and only then is the file replaced at one stroke. Whatever fails
before that leaves the document as it is, though a copy whose writing failed is not taken back.
-/

namespace SealedConfig.Bulk

variable {m : Type → Type} [Host m]

/-- The path of the lock of a document. -/
def lockPath (path : String) : String := path ++ ".lock"

/-- The path of a copy of a document: the first one of a second has no number. -/
def backupPath (path stamp : String) (attempt : Nat) : String :=
  let base := path ++ ".backup." ++ stamp
  if attempt = 0 then base else base ++ "." ++ toString attempt

/-- How many copies of a document one second may see. -/
def backupLimit : Nat := 100

/-- Why no copy of a document was made. -/
def noBackup (path : String) (fault : FileFault) : Failure := .bulk (.backupFailed path fault)

/-- Makes a file with the content and the permission bits of a document, under the first free path from an attempt on.
What was written of it before a fault stays. -/
def backupFrom (path stamp : String) (content : Bytes) (mode : Nat) : (room attempt : Nat) → Run m String
  | 0, _ => Run.fail (noBackup path .noFreeBackup)
  | room + 1, attempt => do
    match ← Run.step (Host.createNew (backupPath path stamp attempt)) with
    | .ok file =>
      Run.attempt (noBackup path) (Host.fill file content mode).run
      return backupPath path stamp attempt
    | .error .alreadyExists => backupFrom path stamp content mode room (attempt + 1)
    | .error fault => Run.fail (noBackup path fault)

/-- Copies a document to a fresh path. -/
def backup (path stamp : String) : Run m String := do
  let content ← Run.attempt (noBackup path) (Host.read path)
  let mode ← Run.attempt (noBackup path) (Host.modeOf path)
  backupFrom path stamp content mode backupLimit 0

/-- What becomes of the text of a secret. -/
def transform (p : Protector) (operation : Operation) (field : SecretField) : Run m String :=
  match operation with
  | .encrypt => Run.enclose p field.value
  | .decrypt =>
    Run.settle (fun fault => .bulk (.field operation field.path fault)) (Envelope.disclose p field.value)

/-- Whether a run that is to be cancelled after a number of fields is cancelled once so many are done. -/
def isCancelled (cancelAfter : Option Nat) (done : Nat) : Bool := cancelAfter.any (· ≤ done)

/-- Fails if the run is cancelled. -/
def checkCancelled (cancelAfter : Option Nat) (path : String) (done total : Nat) : Run m Unit := do
  if isCancelled cancelAfter done then
    Run.warn "rewrite cancelled" [Log.plain "path" path, Log.count "done" done, Log.count "total" total]
    Run.fail (.bulk (.cancelled path done total))

/-- The edits of the secrets that are left when some are done. -/
def editsFrom (p : Protector) (operation : Operation) (cancelAfter : Option Nat) (path : String) (total : Nat) :
    (done : Nat) → List SecretField → Run m (List Edit)
  | done, [] => do
    checkCancelled cancelAfter path done total
    return []
  | done, field :: rest => do
    checkCancelled cancelAfter path done total
    let value ← transform p operation field
    Run.debug "field rewritten" [Log.plain "field" field.path.display, Log.inQuotes "operation" operation.name]
    return (field.path, value) :: (← editsFrom p operation cancelAfter path total (done + 1) rest)

/-- Replaces the content of a document. -/
def write (path content : String) : Run m Unit := do
  Run.attempt (fun fault => .bulk (.unwritable path fault)) (Host.replace path (Bytes.ofText content))
  Run.debug "document written" [Log.plain "path" path, Log.count "bytes" content.utf8ByteSize]

/-- Tells that a document was updated. -/
def announce (operation : Operation) (path : String) (total : Nat) : Run m Unit :=
  let fields := [Log.plain "path" path, Log.count "count" total]
  match operation with
  | .encrypt => Run.inform "secrets encrypted" fields
  | .decrypt => Run.warn "secrets written to disk in plain text" fields

/-- Rewrites the secrets of a loaded document of which a copy was made. -/
def rewriteTargets (p : Protector) (operation : Operation) (cancelAfter : Option Nat) (doc : Document) (path : String)
    (targets : List SecretField) (copy : String) : Run m Report := do
  let edits ← editsFrom p operation cancelAfter path targets.length 0 targets
  let edited ← Run.settle .document (doc.replaceStrings edits)
  Run.debug "document edited" [Log.count "edits" edits.length]
  write path edited.raw
  announce operation path targets.length
  return ⟨operation, edits.map fun edit => edit.1.display, some copy⟩

/-- Updates the secrets of a loaded document. -/
def updateTargets (p : Protector) (operation : Operation) (cancelAfter : Option Nat) (doc : Document) (path : String)
    (targets : List SecretField) : Run m Report := do
  let copy ← backup path (← Run.now).stamp
  Run.inform "created backup" [Log.plain "path" path, Log.plain "backup" copy]
  rewriteTargets p operation cancelAfter doc path targets copy

/-- Updates a document whose lock is held. -/
def updateLocked (p : Protector) (operation : Operation) (confirmed : Bool) (cancelAfter : Option Nat)
    (path : String) : Run m Report := do
  let doc ← Document.load path
  let targets := operation.targets (Scan.ofDocument doc)
  if targets.isEmpty then
    Run.debug "nothing to rewrite" [Log.plain "path" path, Log.inQuotes "operation" operation.name]
    return Report.idle operation
  else if operation = .decrypt && !confirmed then Run.fail (.bulk (.notConfirmed targets.length))
  else updateTargets p operation cancelAfter doc path targets

/-- Runs a computation under the lock of a document and tells when the lock is taken and left. -/
def underLock {α : Type} (path : String) (body : Run m α) : Run m α := do
  let fields := [Log.plain "path" (lockPath path)]
  let held : m (Except Failure α) := do
    Host.log ⟨.debugging, "lock acquired", fields⟩
    let result ← body.run
    Host.log ⟨.debugging, "lock released", fields⟩
    return result
  let result ← Run.attempt (fun fault => .bulk (.locked (lockPath path) fault)) (Host.withLock (lockPath path) held)
  Run.settle id result

/-- Encrypts or decrypts every secret of the document in a file. Decrypting has to be confirmed; the run stops as soon
as the number of fields after which it is to be cancelled is done. -/
def update (p : Protector) (operation : Operation) (confirmed : Bool) (cancelAfter : Option Nat) (path : String) :
    Run m Report :=
  underLock path (updateLocked p operation confirmed cancelAfter path)

end SealedConfig.Bulk
