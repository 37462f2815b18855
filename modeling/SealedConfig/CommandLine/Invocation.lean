import SealedConfig.CommandLine.Syntax
import SealedConfig.Settings.Basic

/-!
# Invocations

What the words of a command line ask for. Options that every command knows may stand at any level, the innermost one
counting; two of them fall back to environment variables.
-/

namespace SealedConfig.CommandLine

/-- A command with its arguments. -/
inductive Command where
  | init (protection : Option Protection) (identity : Option String) (force : Bool)
  | encrypt (value : Option String) (key : String)
  | decrypt (value : Option String) (key : String)
  | encryptFile (path : Option String)
  | decryptFile (path : Option String) (yes : Bool)
  | list (path : Option String)
  | get (key : String) (file : Option String)
  | check (path : Option String)
  | credential (kind : String)
  | encryptKeyFile (input output : String)
  | decryptKeyFile (input output : String)
  | completions (shell : String)
  deriving DecidableEq, Repr

/-- A command and the options that every command knows. -/
structure Invocation where
  command : Command
  isVerbose : Bool
  config : Option String
  keyDir : Option String
  asJson : Bool
  deriving DecidableEq, Repr

/-- Takes any text. -/
def anyText : Check := fun _ => true

/-- Takes a path, which is never empty. -/
def aPath : Check := (· ≠ "")

/-- Takes one of some words. -/
def oneOf (words : List String) : Check := (words.contains ·)

/-- The options that every command knows. -/
def globalOptions : List OptionSpec :=
  [⟨"verbose", some 'v', .flag⟩, ⟨"config", none, .value aPath⟩, ⟨"key-dir", none, .value aPath⟩,
    ⟨"json", none, .flag⟩]

/-- An optional path. -/
def optionalPath : PositionalSpec := ⟨false, aPath⟩

/-- The shells that completions are made for. -/
def shells : List String := ["bash", "zsh", "fish", "powershell"]

/-- A command's own options and its positional arguments. -/
structure Shape where
  options : List OptionSpec
  positionals : List PositionalSpec

/-- The commands and their shapes; that of key files has commands of its own. -/
def shapes : List (String × Shape) :=
  [("init", ⟨[⟨"protection", none, .value (oneOf (Protection.all.map Protection.name))⟩,
      ⟨"identity", none, .value aPath⟩, ⟨"force", some 'f', .flag⟩], []⟩),
    ("encrypt", ⟨[⟨"key", none, .value anyText⟩], [⟨false, anyText⟩]⟩),
    ("decrypt", ⟨[⟨"key", none, .value anyText⟩], [⟨false, anyText⟩]⟩),
    ("encrypt-file", ⟨[], [optionalPath]⟩),
    ("decrypt-file", ⟨[⟨"yes", some 'y', .flag⟩], [optionalPath]⟩),
    ("list", ⟨[], [optionalPath]⟩),
    ("get", ⟨[⟨"file", some 'f', .value aPath⟩], [⟨true, anyText⟩]⟩),
    ("check", ⟨[], [optionalPath]⟩),
    ("credential", ⟨[], [⟨false, anyText⟩]⟩),
    ("key-file", ⟨[], []⟩),
    ("completions", ⟨[], [⟨true, oneOf shells⟩]⟩)]

/-- The commands on key files and their shapes. -/
def keyFileShapes : List (String × Shape) :=
  [("encrypt", ⟨[], [⟨true, aPath⟩, ⟨true, aPath⟩]⟩), ("decrypt", ⟨[], [⟨true, aPath⟩, ⟨true, aPath⟩]⟩)]

/-- Help is given for the program or for a command that there is. -/
def helpFor (known : List (String × Shape)) : List String → Stop
  | [] => .help
  | ["help"] => .help
  | name :: rest =>
    if (known.lookup name).isNone then .refused
    else if name = "key-file" then
      match rest with
      | [] => .help
      | [inner] => if inner = "help" || (keyFileShapes.lookup inner).isSome then .help else .refused
      | _ => .refused
    else if rest = [] then .help
    else .refused

/-- Reads words that have to name one of the known commands: the levels outermost first, and the command's name. -/
def readCommand (known : List (String × Shape)) (knowsVersion : Bool) (words : List String) :
    Except Stop (Level × String × Shape × List String) :=
  match readLevel globalOptions [] knowsVersion ("help" :: known.map Prod.fst) words {} none with
  | .error stop => .error stop
  | .ok (_, none) => .error .refused
  | .ok (level, some (name, rest)) =>
    if name = "help" then .error (helpFor known rest)
    else
      match known.lookup name with
      | some shape => .ok (level, name, shape, rest)
      | none => .error .refused

/-- Reads the arguments of a command. -/
def readArguments (shape : Shape) (words : List String) : Except Stop Level :=
  match readLevel (globalOptions ++ shape.options) shape.positionals false [] words {} none with
  | .error stop => .error stop
  | .ok (level, _) => if isComplete shape.positionals level then .ok level else .error .refused

/-- The name of a command and the levels of its command line, innermost first. -/
structure Parsed where
  name : String
  inner : Level
  outer : List Level

/-- Reads the words of a command line. -/
def parse (words : List String) : Except Stop Parsed := do
  let (root, name, shape, rest) ← readCommand shapes true words
  if name = "key-file" then
    let (middle, inner, innerShape, rest) ← readCommand keyFileShapes false rest
    return ⟨"key-file " ++ inner, ← readArguments innerShape rest, [middle, root]⟩
  else return ⟨name, ← readArguments shape rest, [root]⟩

/-- The command that a parsed line asks for. -/
def Parsed.command (parsed : Parsed) : Command :=
  let level := parsed.inner
  let first := level.positionals[0]?
  let second := level.positionals[1]?
  match parsed.name with
  | "init" =>
    .init ((level.value? "protection").bind Protection.ofName?) (level.value? "identity") (level.has "force")
  | "encrypt" => .encrypt first ((level.value? "key").getD "value")
  | "decrypt" => .decrypt first ((level.value? "key").getD "value")
  | "encrypt-file" => .encryptFile first
  | "decrypt-file" => .decryptFile first (level.has "yes")
  | "list" => .list first
  | "get" => .get (first.getD "") (level.value? "file")
  | "check" => .check first
  | "credential" => .credential (first.getD "all")
  | "key-file encrypt" => .encryptKeyFile (first.getD "") (second.getD "")
  | "key-file decrypt" => .decryptKeyFile (first.getD "") (second.getD "")
  | _ => .completions (first.getD "")

/-- The levels of a line, innermost first. -/
def Parsed.levels (parsed : Parsed) : List Level := parsed.inner :: parsed.outer

/-- The path that a global option gives: the innermost one, or else that of its environment variable, which no level
takes when it is empty. -/
def Parsed.globalPath (parsed : Parsed) (name : String) (fallback : Option String) : Except Stop (Option String) :=
  match fallback with
  | some "" =>
    if parsed.levels.all fun level => level.has name then .ok (parsed.levels.findSome? (·.value? name))
    else .error .refused
  | fallback => .ok ((parsed.levels.findSome? (·.value? name)).or fallback)

/-- The environment variable that names the settings file. -/
def configVariable : String := "STRONGBOX_CONFIG"

/-- The environment variable that names the directory of keys. -/
def keyDirVariable : String := "STRONGBOX_KEY_DIR"

/-- What a command line asks for, given the values of the two environment variables. -/
def Invocation.ofWords (words : List String) (config keyDir : Option String) : Except Stop Invocation := do
  let parsed ← parse words
  let config ← parsed.globalPath "config" config
  let keyDir ← parsed.globalPath "key-dir" keyDir
  let has (name : String) : Bool := parsed.levels.any fun level => level.has name
  return ⟨parsed.command, has "verbose", config, keyDir, has "json"⟩

end SealedConfig.CommandLine
