import SealedConfig.Bulk.Update
import SealedConfig.Service.Response

/-!
# The administrative surface

Each operation is a run whose failure becomes a refusal.
-/

namespace SealedConfig

variable {m : Type → Type} [Host m]

/-- A named secret of the document in a file, opened if it is marked; slashes in the name count as colons. -/
def Document.readSecret (p : Protector) (path key : String) : Run m Service.NamedSecret := do
  let doc ← Document.load path
  let keyPath := KeyPath.parse key
  match (doc.getText? keyPath).filter (· ≠ "") with
  | none => Run.fail (.document (.noText keyPath))
  | some stored =>
    let fields := [Log.plain "key" keyPath.display]
    let secret ←
      if Envelope.isMarked stored then do
        pure (Service.NamedSecret.mk keyPath.display (← Run.disclose p stored) true)
      else do
        Run.warn "secret is not encrypted" fields
        pure (Service.NamedSecret.mk keyPath.display stored false)
    Run.warn "retrieved secret" fields
    return secret

/-- The API keys of the document in a file, their secrets opened record by record. -/
def ApiKey.load (p : Protector) (path : String) : Run m (List ApiKey) := do
  let doc ← Document.load path
  let stored ← Run.settle .binding (ApiKey.ofDocument doc)
  return ApiKey.discloseAll p stored

namespace Service

/-- A run whose failure is told and becomes a refusal. -/
def granted {α : Type} (operation : String) (body : Run m α) : ExceptT Refusal m α :=
  ExceptT.mk (do
    match ← body.run with
    | .ok value => return .ok value
    | .error failure =>
      let refusal := Refusal.ofFailure failure
      Host.log ⟨.warning, "admin operation failed", [Log.inQuotes "operation" operation,
        Log.count "status" refusal.status, Log.plain "error" refusal.reason]⟩
      return .error refusal)

/-- Seals one value. -/
def encrypt (p : Protector) (request : SecretRequest) : ExceptT Refusal m Sealed := do
  let encrypted ← granted "encrypt" (Run.enclose p request.value)
  Host.log (m := m) ⟨.information, "encrypted value", [Log.plain "key" request.key]⟩
  return ⟨request.key, encrypted⟩

/-- Opens one value. -/
def decrypt (p : Protector) (request : SecretRequest) : ExceptT Refusal m Opened := do
  let decrypted ← granted "decrypt" (Run.disclose p request.value)
  Host.log (m := m) ⟨.warning, "decrypted value", [Log.plain "key" request.key]⟩
  return ⟨request.key, decrypted⟩

/-- Seals every plain secret of a document. -/
def encryptAll (p : Protector) (cancelAfter : Option Nat) (path : String) : ExceptT Refusal m Finished := do
  let report ← granted "encrypt-all" (Bulk.update p .encrypt true cancelAfter path)
  Host.log (m := m) ⟨.information, "encrypt-all finished", [Log.plain "message" report.message]⟩
  return ⟨report⟩

/-- Opens every sealed secret of a document. -/
def decryptAll (p : Protector) (confirmed : Bool) (cancelAfter : Option Nat) (path : String) :
    ExceptT Refusal m Finished := do
  let report ← granted "decrypt-all" (Bulk.update p .decrypt confirmed cancelAfter path)
  Host.log (m := m) ⟨.warning, "decrypt-all finished", [Log.plain "message" report.message]⟩
  return ⟨report⟩

/-- Fetches one named secret of a document. -/
def getSecret (p : Protector) (path key : String) : ExceptT Refusal m NamedSecret :=
  granted "get-secret" (Document.readSecret p path key)

end Service

end SealedConfig
