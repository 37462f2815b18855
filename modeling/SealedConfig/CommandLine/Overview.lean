import SealedConfig.CommandLine.Context
import SealedConfig.Credential.Health
import SealedConfig.Document.Load

/-!
# Commands that report

Which secrets a document has, whether all that is sealed opens, and where signing credentials come from. None of them
changes anything.
-/

namespace SealedConfig.CommandLine.Context

variable {m : Type → Type} [Host m] (context : Context)

/-- The form of a listed secret. -/
def listed (field : SecretField) : Json :=
  .object [("key", .string field.path.display), ("encrypted", .bool field.isEncrypted)]

/-- The line of a listed secret. -/
def listLine (field : SecretField) : String :=
  let status := if field.isEncrypted then context.style.dim "encrypted" else context.style.caution "plain"
  context.style.named field.path.display ++ "  " ++ status

/-- Lists the secrets of a document; no key is needed. -/
def list (path : Option String) : Run m Unit := do
  let path := context.documentPath path
  let scan ← Scan.load path
  if context.asJson then printJson (.array (scan.map listed))
  else if scan.isEmpty then context.style.remark "no secrets found"
  else
    context.style.title path
    scan.forM fun field => printItem (context.listLine field)
    let plain := scan.plain.length
    if plain ≠ 0 then
      Run.print "\n"
      context.style.hint s!"{plain} plain secret{Report.plural plain}, run: strongbox encrypt-file"

/-- The sealed secrets that do not open. -/
def unopened (p : Protector) (scan : Scan) : Scan :=
  scan.encrypted.filter fun field => !(Envelope.disclose p field.value).isOk

/-- Checks that the master key loads and that everything sealed in a document opens. -/
def check (path : Option String) : Run m Unit := do
  let path := context.documentPath path
  let store ← context.store
  let p ← context.protector Protector.configSecrets
  let scan ← Scan.load path
  let failed := (unopened p scan).map fun field => field.path.display
  let plain := scan.plain.map fun field => field.path.display
  let encrypted := scan.encrypted.length
  Run.debug "check finished"
    [Log.count "encrypted" encrypted, Log.count "plain" plain.length, Log.count "failed" failed.length]
  if context.asJson then
    printJson (.object [("store", .string store.name), ("location", .string store.location),
      ("document", .string path), ("encrypted", .number (.integer encrypted)),
      ("plain", .array (plain.map .string)), ("failed", .array (failed.map .string))])
  else
    let style := context.style
    style.title "Strongbox Check"
    style.labelled "store" s!"{store.name} ({store.location})"
    style.labelled "document" (style.named path)
    style.labelled "encrypted" (toString encrypted)
    plain.forM fun key => style.warning s!"{style.named key} is not encrypted"
    failed.forM fun key => style.error s!"{style.named key} does not decrypt"
    if failed.isEmpty then style.success "all encrypted values decrypt"
  if !failed.isEmpty then Run.fail (.valuesUndecipherable failed.length)

/-- The resolver over the document of the settings, if there is one, and the master key, if it can be had. -/
def resolver : Run m Resolver := do
  let path := context.settings.document.path
  let document ←
    if ← Run.pathExists path then do pure (some (← Document.load path))
    else do
      Run.debug "no configuration document, using environment only" [Log.plain "path" path]
      pure none
  let provider ← Run.step (m := m) context.provider.run
  match provider with
  | .ok provider => return ⟨.host document, some provider, context.settings.credentials⟩
  | .error failure =>
    Run.debug "no master key for credential decryption" [Log.plain "error" failure.message]
    return ⟨.host document, none, context.settings.credentials⟩

/-- The kinds that a user names: one, or all. -/
def kindsOf (name : String) : Except Credential.Fault (List CredentialKind) :=
  if Json.sameIgnoringCase name "all" then .ok CredentialKind.all
  else (CredentialKind.ofText name).map ([·])

/-- Prints the state of a credential. -/
def printHealth (health : Health) : Run m Unit := do
  let style := context.style
  let yesNo (b : Bool) : String := if b then "yes" else "no"
  style.title health.kind.display
  style.labelled "configured" (yesNo health.isConfigured)
  style.labelled "exists" (yesNo health.isPresent)
  style.labelled "loadable" (yesNo health.isLoadable)
  health.source.forM fun source => style.labelled "source" source.display
  health.failure.forM fun message => style.error message

/-- Reports where credentials come from; those that cannot be loaded make the command fail. -/
def credential (name : String) : Run m Unit := do
  let resolver ← context.resolver
  let kinds ← Run.settle .credential (kindsOf name)
  let reports ← kinds.mapM fun kind => Run.step (m := m) (resolver.health kind)
  if context.asJson then printJson (.array (reports.map Health.toJson)) else reports.forM context.printHealth
  let missing := (reports.filter fun health => !health.isLoadable).length
  if missing ≠ 0 then Run.fail (.credentialsMissing missing reports.length)

end SealedConfig.CommandLine.Context
