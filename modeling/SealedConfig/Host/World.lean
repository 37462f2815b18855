import SealedConfig.Host.Basic
import SealedConfig.Host.FileTree

/-!
# Worlds

A host as a value: its files, environment, clocks, random bytes and what was written to its streams. A computation is
then a function of the world that it finds to its result and the world that it leaves. A step on the files of a world
fails only for what stands where; the device takes all that is written.
-/

namespace SealedConfig

/-- Everything a computation can see or change. -/
structure World where
  files : FileTree
  here : Location
  environment : List (String × String)
  fallbackHome : Option String
  now : Option Moment
  ticks : Nat
  randomness : Nat → UInt8
  drawn : Nat
  input : Bytes
  output : String
  complaints : String
  filter : Log.Filter
  manual : Manual → String := fun _ => "\n"

namespace World

/-- The value of an environment variable. -/
def envValue? (world : World) (name : String) : Option String := world.environment.lookup name

/-- The world with an environment variable set or removed. -/
def setEnvValue (world : World) (name : String) : Option String → World
  | some value => { world with environment := (name, value) :: world.environment.filter fun entry => entry.1 != name }
  | none => { world with environment := world.environment.filter fun entry => entry.1 != name }

/-- What a path leads to. -/
def stat? (world : World) (path : String) : Option FileInfo :=
  match world.files.stat world.here path with
  | .ok node => some ⟨node.isFile, some node.mode⟩
  | .error _ => none

/-- The world with other files, if there are any to be had. -/
def withFiles (world : World) : Except FileFault FileTree → Except FileFault Unit × World
  | .ok files => (.ok (), { world with files := files })
  | .error fault => (.error fault, world)

/-- The world with other files, and the location of one that was opened, if it could be. -/
def withOpened (world : World) : Except FileFault (Location × FileTree) → Except FileFault Location × World
  | .ok (location, files) => (.ok location, { world with files := files })
  | .error fault => (.error fault, world)

/-- The tree with a copy of a file at a path where nothing was: what copying it comes to when no step is refused
(`Bulk.outcome_backupFrom`). -/
def copyNew (world : World) (source target : String) : Except FileFault FileTree :=
  match world.files.stat world.here source with
  | .error fault => .error fault
  | .ok (.directory _) => .error .isDirectory
  | .ok (.file content mode) => world.files.createNew world.here target content mode

/-- The next random bytes. -/
def draw (world : World) (n : Nat) : Vector UInt8 n := Vector.ofFn fun i => world.randomness (world.drawn + i.val)

/-- The world after telling an event. -/
def tell (world : World) (event : Log.Event) : World :=
  if world.filter.admits event then
    { world with complaints := world.complaints ++ event.line world.filter.isPainted }
  else world

/-- The user's home directory: that of the environment, or else that of the user list. -/
def home? (world : World) : Option String :=
  match world.envValue? "HOME" with
  | some home => if home = "" then world.fallbackHome else some home
  | none => world.fallbackHome

end World

instance : Host (StateM World) where
  OpenFile := Location
  stat path world := (world.stat? path, world)
  read path world := (world.files.read world.here path, world)
  withLock path body world :=
    match world.files.touch world.here path with
    | .error fault => (.error fault, world)
    | .ok files => let (result, after) := body { world with files := files }; (.ok result, after)
  modeOf path world := (world.files.modeOf world.here path, world)
  createNew path world := world.withOpened (world.files.openNew world.here path)
  openEmpty path world := world.withOpened (world.files.openEmpty world.here path)
  createBeside path world := world.withOpened (world.files.openBeside world.here path)
  append file bytes world := world.withFiles (.ok (world.files.append file bytes))
  sync _ world := (.ok (), world)
  setMode file mode world := world.withFiles (.ok (world.files.setMode file mode))
  moveTo file path world := world.withFiles (world.files.moveTo file world.here path)
  remove file world := world.withFiles (.ok (world.files.erase file))
  createDirectory path world := world.withFiles (world.files.createDirectory world.here path)
  envValue? name world := (world.envValue? name, world)
  home? world := (world.home?, world)
  now world := (world.now, world)
  ticks world := (world.ticks, world)
  random n world := (world.draw n, { world with drawn := world.drawn + n })
  input world := (.ok world.input, { world with input := [] })
  print text world := ((), { world with output := world.output ++ text })
  complain text world := ((), { world with complaints := world.complaints ++ text })
  manual text world := (world.manual text, world)
  hasColours world := (false, world)
  listen filter world := ((), { world with filter := filter })
  log event world := ((), world.tell event)

end SealedConfig
