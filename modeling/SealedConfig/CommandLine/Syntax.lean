/-!
# The syntax of command lines

A command has options, positional arguments and subcommands. Options are long, or short and clustered; a value follows
an option after `=`, in the same word or in the next one, and a word that begins with a dash is no value. Behind `--`
all words are positional.
-/

namespace SealedConfig.CommandLine

/-- Whether an option or positional argument takes a text. -/
abbrev Check := String → Bool

/-- What an option is followed by: nothing, or a value that is checked. -/
inductive OptionShape where
  | flag
  | value (check : Check)

/-- An option: its long name, its letter, and what it is followed by. -/
structure OptionSpec where
  name : String
  letter : Option Char
  shape : OptionShape

/-- A positional argument. -/
structure PositionalSpec where
  isRequired : Bool
  check : Check

/-- What was found at one level of a command line. -/
structure Level where
  options : List (String × String) := []
  positionals : List String := []
  deriving DecidableEq, Repr

namespace Level

/-- Whether an option was given. -/
def has (level : Level) (name : String) : Bool := level.options.any fun given => given.1 == name

/-- The value of an option. -/
def value? (level : Level) (name : String) : Option String := level.options.lookup name

end Level

/-- Why reading words stops early: they are refused, or ask for help or for the version. -/
inductive Stop where
  | refused
  | help
  | version
  deriving DecidableEq, Repr

/-- The words that ask for help. -/
def isHelp (name : String) : Bool := name == "help"

/-- An option's value taken up, unless it was given before or is not taken. -/
def takeValue (spec : OptionSpec) (check : Check) (value : String) (level : Level) : Except Stop Level :=
  if level.has spec.name || !check value then .error .refused
  else .ok { level with options := level.options ++ [(spec.name, value)] }

/-- A flag taken up, unless it was given before. -/
def takeFlag (spec : OptionSpec) (level : Level) : Except Stop Level :=
  if level.has spec.name then .error .refused else .ok { level with options := level.options ++ [(spec.name, "")] }

/-- A positional argument taken up, if there is a place for it and it is taken. -/
def takePositional (specs : List PositionalSpec) (value : String) (level : Level) : Except Stop Level :=
  match specs[level.positionals.length]? with
  | some spec =>
    if spec.check value then .ok { level with positionals := level.positionals ++ [value] } else .error .refused
  | none => .error .refused

/-- What a word with options leads to: the level, and the option that still waits for its value. -/
abbrev Taken := Except Stop (Level × Option (OptionSpec × Check))

/-- A word after two dashes. -/
def takeLong (options : List OptionSpec) (knowsVersion : Bool) (word : List Char) (level : Level) : Taken :=
  let name := String.ofList (word.takeWhile (· ≠ '='))
  let attached : Option String :=
    match word.dropWhile (· ≠ '=') with
    | [] => none
    | _ :: value => some (String.ofList value)
  match options.find? (·.name == name), attached with
  | some spec, attached =>
    match spec.shape, attached with
    | .flag, none => do return (← takeFlag spec level, none)
    | .flag, some _ => .error .refused
    | .value check, some value => do return (← takeValue spec check value level, none)
    | .value check, none => .ok (level, some (spec, check))
  | none, none =>
    if isHelp name then .error .help
    else if knowsVersion && name == "version" then .error .version
    else .error .refused
  | none, some _ => .error .refused

/-- The letters of a word after one dash. -/
def takeLetters (options : List OptionSpec) (knowsVersion : Bool) : List Char → Level → Taken
  | [], level => .ok (level, none)
  | letter :: rest, level =>
    match options.find? (·.letter == some letter) with
    | some spec =>
      match spec.shape with
      | .flag =>
        match takeFlag spec level with
        | .error stop => .error stop
        | .ok level => takeLetters options knowsVersion rest level
      | .value check =>
        match rest with
        | [] => .ok (level, some (spec, check))
        | '=' :: value => do return (← takeValue spec check (String.ofList value) level, none)
        | value => do return (← takeValue spec check (String.ofList value) level, none)
    | none =>
      if letter = 'h' then .error .help
      else if knowsVersion && letter == 'V' then .error .version
      else .error .refused

/-- Whether a word is one of options: a dash and something behind it. -/
def isOptionWord (word : String) : Bool :=
  match word.toList with
  | '-' :: _ :: _ => true
  | _ => false

/-- Options taken from a word. -/
def takeOptions (options : List OptionSpec) (knowsVersion : Bool) (word : String) (level : Level) : Taken :=
  match word.toList with
  | '-' :: '-' :: rest => takeLong options knowsVersion rest level
  | '-' :: rest => takeLetters options knowsVersion rest level
  | _ => .error .refused

/-- Positional arguments taken from all words. -/
def takePositionals (specs : List PositionalSpec) : List String → Level → Except Stop Level
  | [], level => .ok level
  | word :: rest, level =>
    match takePositional specs word level with
    | .error stop => .error stop
    | .ok level => takePositionals specs rest level

/-- The words of a level up to a subcommand's name: what was found, and that name with the words behind it. -/
def readLevel (options : List OptionSpec) (specs : List PositionalSpec) (knowsVersion : Bool) (names : List String) :
    List String → Level → Option (OptionSpec × Check) → Except Stop (Level × Option (String × List String))
  | [], level, none => .ok (level, none)
  | [], _, some _ => .error .refused
  | word :: rest, level, some (spec, check) =>
    if isOptionWord word then .error .refused
    else
      match takeValue spec check word level with
      | .error stop => .error stop
      | .ok level => readLevel options specs knowsVersion names rest level none
  | word :: rest, level, none =>
    if word ∈ names then .ok (level, some (word, rest))
    else if word = "--" then (takePositionals specs rest level).map fun level => (level, none)
    else if isOptionWord word then
      match takeOptions options knowsVersion word level with
      | .error stop => .error stop
      | .ok (level, waiting) => readLevel options specs knowsVersion names rest level waiting
    else
      match takePositional specs word level with
      | .error stop => .error stop
      | .ok level => readLevel options specs knowsVersion names rest level none

/-- Whether a level has all positional arguments that are required. -/
def isComplete (specs : List PositionalSpec) (level : Level) : Bool :=
  (specs.drop level.positionals.length).all fun spec => !spec.isRequired

end SealedConfig.CommandLine
