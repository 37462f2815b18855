import SealedConfig.Host.World

/-!
# Faulty worlds

A world whose device may refuse any single step on its files: for want of space, for want of a permission, or for a
reason of its own. A schedule says which steps are struck, counted as they are taken. A step that is struck changes
nothing, save that a part of what was to be written may stand; and what the steps before it did stays.

That a path leads somewhere or nowhere is still told truthfully, and the environment, the clocks, the random bytes and
the streams are those of the world.
-/

namespace SealedConfig

/-- A fault that strikes a step, and how many bytes are written before it where some are to be. -/
structure Mishap where
  fault : FileFault
  written : Nat
  isMishap : fault.isMishap = true
  deriving DecidableEq, Repr

/-- A world, which of the steps on its files are struck, and how many of them were taken. -/
structure FaultyWorld where
  world : World
  mishaps : Nat → Option Mishap
  taken : Nat

namespace FaultyWorld

variable {α : Type}

/-- Something that cannot be struck. -/
def calmly (operation : StateM World α) : StateM FaultyWorld α := fun faulty =>
  let (result, after) := operation faulty.world
  (result, { faulty with world := after })

/-- A step that may be struck, and then only begun. -/
def riskily (begun : Mishap → World → World) (operation : StateM World (Except FileFault α)) :
    StateM FaultyWorld (Except FileFault α) := fun faulty =>
  match faulty.mishaps faulty.taken with
  | some mishap => (.error mishap.fault, { faulty with world := begun mishap faulty.world, taken := faulty.taken + 1 })
  | none =>
    let (result, after) := operation faulty.world
    (result, { faulty with world := after, taken := faulty.taken + 1 })

/-- A step that changes nothing when it is struck. -/
def wholly (operation : StateM World (Except FileFault α)) : StateM FaultyWorld (Except FileFault α) :=
  riskily (fun _ world => world) operation

/-- The world with that part of some bytes behind an open file that is written before a mishap. -/
def appendPart (file : Location) (bytes : Bytes) (mishap : Mishap) (world : World) : World :=
  { world with files := world.files.append file (bytes.take mishap.written) }

/-- Makes the file of a lock unless there is one. -/
def touch (path : String) : StateM World (Except FileFault Unit) := fun world =>
  world.withFiles (world.files.touch world.here path)

end FaultyWorld

open FaultyWorld in
instance : Host (StateM FaultyWorld) where
  OpenFile := Location
  stat path := calmly (Host.stat path)
  read path := wholly (Host.read path)
  withLock path body := ExceptT.run do
    ExceptT.mk (wholly (touch path))
    -- the file is there, and the lock on it is still to be had
    ExceptT.mk (wholly (pure (.ok ())))
    ExceptT.lift body
  modeOf path := wholly (Host.modeOf path)
  createNew path := wholly (Host.createNew path)
  openEmpty path := wholly (Host.openEmpty path)
  createBeside path := wholly (Host.createBeside path)
  append file bytes := riskily (appendPart file bytes) (Host.append (m := StateM World) file bytes)
  sync file := wholly (Host.sync (m := StateM World) file)
  setMode file mode := wholly (Host.setMode (m := StateM World) file mode)
  moveTo file path := wholly (Host.moveTo (m := StateM World) file path)
  remove file := wholly (Host.remove (m := StateM World) file)
  createDirectory path := wholly (Host.createDirectory path)
  envValue? name := calmly (Host.envValue? name)
  home? := calmly Host.home?
  now := calmly Host.now
  ticks := calmly Host.ticks
  random n := calmly (Host.random n)
  input := calmly Host.input
  print text := calmly (Host.print text)
  complain text := calmly (Host.complain text)
  manual text := calmly (Host.manual text)
  hasColours := calmly Host.hasColours
  listen filter := calmly (Host.listen filter)
  log event := calmly (Host.log event)

end SealedConfig
