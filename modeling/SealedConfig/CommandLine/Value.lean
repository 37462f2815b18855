import SealedConfig.CommandLine.Context
import SealedConfig.Service.Basic

/-!
# Commands on single values

Sealing and opening a value that is given as an argument or on standard input, and telling one secret of a document.
-/

namespace SealedConfig.CommandLine

variable {m : Type → Type} [Host m]

/-- A text without the line ends behind it. -/
def dropLineEnds (text : String) : String :=
  String.ofList (text.toList.reverse.dropWhile fun c => c == '\r' || c == '\n').reverse

/-- The value of the argument, or else all of standard input without its line end. -/
def readValue : Option String → Run m String
  | some value => return value
  | none => do
    let bytes ← Run.attempt .file Host.input
    match Bytes.toText? bytes with
    | some text => return dropLineEnds text
    | none => Run.fail (.file .invalidText)

namespace Context

variable (context : Context)

/-- Prints the envelope of a value. -/
def encrypt (value : Option String) (key : String) : Run m Unit := do
  let value ← readValue value
  let p ← context.protectorOrNew Protector.configSecrets
  let sealed ← Run.enclose p value
  Run.inform "encrypted value" [Log.plain "key" key]
  if context.asJson then printJson (Service.Sealed.mk key sealed).toJson else Run.print (sealed ++ "\n")

/-- Prints the text in an envelope, blanks around which do not count. -/
def decrypt (value : Option String) (key : String) : Run m Unit := do
  let value ← readValue value
  let p ← context.protector Protector.configSecrets
  let plain ← Run.disclose p (trim value)
  Run.inform "decrypted value" [Log.plain "key" key]
  if context.asJson then printJson (Service.Opened.mk key plain).toJson else Run.print (plain ++ "\n")

/-- Prints one secret of a document. -/
def get (key : String) (file : Option String) : Run m Unit := do
  let path := context.documentPath file
  let p ← context.protector Protector.configSecrets
  let secret ← Document.readSecret p path key
  if context.asJson then printJson secret.toJson
  else
    if !secret.wasEncrypted then context.style.warning s!"{context.style.named secret.key} is not encrypted"
    Run.print (secret.value ++ "\n")

end Context

end SealedConfig.CommandLine
