import SealedConfig.Bytes
import SealedConfig.Host.Fault
import SealedConfig.Host.Moment
import SealedConfig.Log.Filter

/-!
# Hosts

All that a computation may ask of the machine it runs on: files, the environment, clocks, random bytes and standard
streams. What it does is written once for every host; a host is a value (`World`), or one whose device may refuse a step
(`FaultyWorld`). Files are asked for in the single steps of an operating system, each of which can fail on its own.
-/

namespace SealedConfig

/-- What is known of a path that leads somewhere: whether to a file, and its permission bits where the host tells. -/
structure FileInfo where
  isFile : Bool
  mode : Option Nat
  deriving DecidableEq, Repr

/-- A text that the parser of the command line writes about the program, its commands and its options. -/
inductive Manual where
  | help (words : List String)
  | refusal (words : List String)
  | completions (shell : String)
  deriving DecidableEq, Repr

/-- A machine that computations of `m` run on. -/
class Host (m : Type → Type) extends Monad m where
  /-- A file that is open to be written. -/
  OpenFile : Type
  /-- What a path leads to, if to anything. -/
  stat : String → m (Option FileInfo)
  /-- The content of a file. -/
  read : String → m (Except FileFault Bytes)
  /-- Runs a computation while no other holds the lock that the file at a path stands for; the file is made if needed. -/
  withLock : {α : Type} → String → m α → m (Except FileFault α)
  /-- The permission bits of a file. -/
  modeOf : String → m (Except FileFault Nat)
  /-- Makes an empty file at a path where nothing is. -/
  createNew : String → m (Except FileFault OpenFile)
  /-- Empties the file at a path, or makes one for its owner only if there is none. -/
  openEmpty : String → m (Except FileFault OpenFile)
  /-- Makes an empty file for its owner only, under a fresh name in the directory of the file at a path. -/
  createBeside : String → m (Except FileFault OpenFile)
  /-- Writes behind what an open file holds. -/
  append : OpenFile → Bytes → m (Except FileFault Unit)
  /-- Waits until the content of an open file is on the device. -/
  sync : OpenFile → m (Except FileFault Unit)
  /-- Sets the permission bits of an open file. -/
  setMode : OpenFile → Nat → m (Except FileFault Unit)
  /-- Moves an open file to a path, over the file that is there. -/
  moveTo : OpenFile → String → m (Except FileFault Unit)
  /-- Removes an open file. -/
  remove : OpenFile → m (Except FileFault Unit)
  /-- Makes a directory in one that there is. -/
  createDirectory : String → m (Except FileFault Unit)
  /-- The value of an environment variable. -/
  envValue? : String → m (Option String)
  /-- The user's home directory. -/
  home? : m (Option String)
  /-- The time of day, if the clock shows one that calendars cover. -/
  now : m (Option Moment)
  /-- Milliseconds on a clock that only moves forward. -/
  ticks : m Nat
  /-- Fresh random bytes. -/
  random : (n : Nat) → m (Vector UInt8 n)
  /-- All of standard input. -/
  input : m (Except FileFault Bytes)
  /-- Writes to standard output. -/
  print : String → m Unit
  /-- Writes to standard error. -/
  complain : String → m Unit
  /-- What the parser of the command line writes. -/
  manual : Manual → m String
  /-- Whether standard output is a terminal with colours. -/
  hasColours : m Bool
  /-- Sets which log events are told. -/
  listen : Log.Filter → m Unit
  /-- Tells a log event on standard error, if it is one of those that are told. -/
  log : Log.Event → m Unit

namespace Host

variable {m : Type → Type} [Host m]

/-- Whether a path leads anywhere. -/
def pathExists (path : String) : m Bool := do return (← Host.stat path).isSome

/-- Whether a path leads to a file. -/
def isFile (path : String) : m Bool := do return (← Host.stat path).any FileInfo.isFile

/-- Whether a path leads to a directory. -/
def isDirectory (path : String) : m Bool := do return (← Host.stat path).any (!·.isFile)

/-- The text of a file. -/
def readText (path : String) : m (Except FileFault String) := do
  match ← Host.read path with
  | .error fault => return .error fault
  | .ok bytes =>
    match Bytes.toText? bytes with
    | some text => return .ok text
    | none => return .error .invalidText

/-- The value of an environment variable that is not empty. -/
def nonEmptyEnv? (name : String) : m (Option String) := do return (← Host.envValue? name).filter (· ≠ "")

end Host

end SealedConfig
