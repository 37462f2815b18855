import SealedConfig.CommandLine.Context
import SealedConfig.Service.Basic

/-!
# Commands that update a document

Sealing or opening every secret of a document at once, and telling what was done.
-/

namespace SealedConfig.CommandLine.Context

variable {m : Type → Type} [Host m] (context : Context)

/-- Prints what was done to a document, and beside it what is to be done about it. -/
def printReport (report : Report) (advice : Run m Unit) : Run m Unit := do
  if report.isIdle then context.style.remark report.message
  else
    context.style.success report.message
    report.fields.forM fun field => printItem (context.style.named field)
    report.backup.forM fun copy => context.style.labelled "backup" (context.style.named copy)
    advice

/-- Prints what was done to a document, as a tree or in lines. -/
def answerReport (report : Report) (advice : Run m Unit) : Run m Unit :=
  if context.asJson then printJson (Service.Finished.mk report).toJson else context.printReport report advice

/-- Seals every plain secret of a document. -/
def encryptFile (path : Option String) : Run m Unit := do
  let path := context.documentPath path
  let p ← context.protectorOrNew Protector.configSecrets
  let report ← Bulk.update p .encrypt false none path
  context.answerReport report (context.style.hint "restart the application for changes to take effect")

/-- Opens every sealed secret of a document, which has to be confirmed. Unless it is, the document is read before the
key is asked for. -/
def decryptFile (path : Option String) (confirmed : Bool) : Run m Unit := do
  let path := context.documentPath path
  if !confirmed then discard (Scan.load path)
  let p ← context.protector Protector.configSecrets
  let report ← Bulk.update p .decrypt confirmed none path
  context.answerReport report
    (context.style.warning "secrets are now in plain text, re-encrypt before committing")

end SealedConfig.CommandLine.Context
