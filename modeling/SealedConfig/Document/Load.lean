import SealedConfig.Document.Scan
import SealedConfig.Run

/-!
# Documents in files

Reading a document from its file, and the secrets that it lists.
-/

namespace SealedConfig

variable {m : Type → Type} [Host m]

/-- The document in a file. -/
def Document.load (path : String) : Run m Document := do
  Run.debug "loading document" [Log.plain "path" path]
  if ← Run.pathExists path then
    let raw ← Run.attempt (fun fault => .document (.unreadable path fault)) (Host.readText path)
    Run.settle .document (Document.read (some path) raw)
  else Run.fail (.document (.missing path))

/-- The secrets of the document in a file. -/
def Scan.load (path : String) : Run m Scan := do return Scan.ofDocument (← Document.load path)

end SealedConfig
