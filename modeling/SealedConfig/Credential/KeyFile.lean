import SealedConfig.Host.Files
import SealedConfig.Run

/-!
# Key files

A key file at rest holds a single envelope on a line of its own; a bare protected text is read as well. What is neither
an envelope nor opens like a PEM file is taken to be protected.
-/

namespace SealedConfig.KeyFile

/-- What a PEM file opens with. -/
def pemOpening : String := "-----BEGIN"

/-- What faults call a key file. -/
def what : String := "key file"

/-- Whether a content looks protected. -/
def looksProtected (content : String) : Bool :=
  let trimmed := trim content
  Envelope.isMarked trimmed || !(pemOpening.toList.isPrefixOf trimmed.toList)

/-- The text in a protected content, with the marker or without. -/
def disclose (p : Protector) (content : String) : Except Envelope.Fault String :=
  let trimmed := trim content
  if Envelope.isMarked trimmed then Envelope.disclose p trimmed
  else (p.unprotect trimmed).mapError .undecipherable

variable {m : Type → Type} [Host m]

/-- The text of a key file. -/
def read (path : String) : Run m String :=
  Run.attempt (fun fault => .credential (.unreadable what path fault)) (Host.readText path)

/-- Writes the envelope of a plain key file to a file for its owner only. -/
def encrypt (p : Protector) (input output : String) : Run m Unit := do
  let plain ← read input
  if Envelope.isMarked (trim plain) then Run.fail (.alreadyEncrypted input)
  else
    let sealed ← Run.enclose p plain
    Run.attempt .file (Host.writePrivate output (Bytes.ofText (sealed ++ "\n")))
    Run.inform "encrypted key file" [Log.plain "input" input, Log.plain "output" output]

/-- Writes the text in a protected key file to a file for its owner only. -/
def decrypt (p : Protector) (input output : String) : Run m Unit := do
  let content ← read input
  let plain ← Run.settle (fun fault => .credential (.undecipherable what input (.envelope fault))) (disclose p content)
  Run.attempt .file (Host.writePrivate output (Bytes.ofText plain))
  Run.inform "decrypted key file" [Log.plain "input" input, Log.plain "output" output]

end SealedConfig.KeyFile
