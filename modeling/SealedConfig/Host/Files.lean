import SealedConfig.Host.Basic
import SealedConfig.Host.FileTree

/-!
# Whole files

Writing a file, replacing one and making directories, as runs of the single steps of a host. A run stops at the first
step that fails, and what the steps before it did stays, save for a temporary file, which is removed if it can be.
-/

namespace SealedConfig.Host

variable {m : Type → Type} [Host m]

/-- Gives an open file its content and then its permission bits. -/
def fill (file : OpenFile m) (content : Bytes) (mode : Nat) : ExceptT FileFault m Unit := do
  ExceptT.mk (Host.append file content)
  ExceptT.mk (Host.sync file)
  ExceptT.mk (Host.setMode file mode)

/-- Writes a file for its owner only, whether there was one or not. -/
def writePrivate (path : String) (content : Bytes) : m (Except FileFault Unit) := ExceptT.run do
  let file ← ExceptT.mk (Host.openEmpty path)
  fill file content FileTree.privateMode

/-- Gives a temporary file its content and permission bits and moves it to a path. -/
def fillAndMove (file : OpenFile m) (path : String) (content : Bytes) (mode : Nat) : ExceptT FileFault m Unit := do
  fill file content mode
  ExceptT.mk (Host.moveTo file path)

/-- Removes a temporary file if a run with it has failed, whether or not that can be done. -/
def discardUnless (file : OpenFile m) (run : ExceptT FileFault m Unit) : ExceptT FileFault m Unit :=
  tryCatch run fun fault => do
    discard (ExceptT.lift (Host.remove file))
    throw fault

/-- Replaces the content of a file at one stroke, its permission bits kept: a temporary file beside it is given the
content and the bits, and then takes its place. -/
def replace (path : String) (content : Bytes) : m (Except FileFault Unit) := ExceptT.run do
  let mode ← ExceptT.mk (Host.modeOf path)
  let file ← ExceptT.mk (Host.createBeside path)
  discardUnless file (fillAndMove file path content mode)

/-- Fails unless a path leads to a directory. -/
def failUnlessDirectory (path : String) (fault : FileFault) : ExceptT FileFault m Unit := do
  unless ← ExceptT.lift (Host.isDirectory path) do throw fault

/-- Makes a directory in one that there is, which is no fault where there is one already. -/
def ensureDirectory (path : String) : ExceptT FileFault m Unit :=
  tryCatch (ExceptT.mk (Host.createDirectory path)) (failUnlessDirectory path)

/-- Makes a directory at a path and at every path above it. -/
def makeDirectories : (room : Nat) → String → ExceptT FileFault m Unit
  | 0, _ => throw .notFound
  | room + 1, path =>
    if path = "" then return ()
    else
      tryCatch (ExceptT.mk (Host.createDirectory path)) fun fault =>
        if fault = .notFound then
          match FilePath.parent? path with
          | none => throw (.other "failed to create whole tree")
          | some above => do
            makeDirectories room above
            ensureDirectory path
        else failUnlessDirectory path fault

/-- Makes a directory and those above it. -/
def createDirectories (path : String) : m (Except FileFault Unit) := (makeDirectories (path.length + 1) path).run

end SealedConfig.Host
