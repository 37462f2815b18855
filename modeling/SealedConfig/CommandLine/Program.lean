import SealedConfig.Age.File
import SealedConfig.CommandLine.Invocation
import SealedConfig.CommandLine.KeyMaterial
import SealedConfig.CommandLine.Overview
import SealedConfig.CommandLine.Update
import SealedConfig.CommandLine.Value

/-!
# The program

A command line from its words to an exit code. What fails is told on standard error, with a hint where there is
something to do about it.
-/

namespace SealedConfig.CommandLine

variable {m : Type → Type} [Host m]

/-- The name and the version of the program. -/
def versionText : String := "strongbox 0.1.0\n"

/-- Prints the script that completes the words of the command line in a shell. -/
def printCompletions (shell : String) : Run m Unit := do
  let script ← Run.step (Host.manual (.completions shell))
  Run.print script

namespace Context

/-- Runs a command under settings. -/
def run (context : Context) : Command → Run m Unit
  | .init protection identity force => context.init protection identity force
  | .encrypt value key => context.encrypt value key
  | .decrypt value key => context.decrypt value key
  | .encryptFile path => context.encryptFile path
  | .decryptFile path yes => context.decryptFile path yes
  | .list path => context.list path
  | .get key file => context.get key file
  | .check path => context.check path
  | .credential kind => context.credential kind
  | .encryptKeyFile input output => context.encryptKeyFile input output
  | .decryptKeyFile input output => context.decryptKeyFile input output
  | .completions shell => printCompletions shell

end Context

/-- Runs what a command line asks for; completions need no settings. -/
def execute (cipher : FileCipher) (style : Style) (invocation : Invocation) : Run m Unit := do
  match invocation.command with
  | .completions shell => printCompletions shell
  | command =>
    let settings ← Settings.load invocation.config
    Context.run ⟨settings.withKeyDir invocation.keyDir, invocation.asJson, cipher, style⟩ command

/-- What to do about a failure. -/
def hintFor : Failure → Option String
  | .store (.noMasterKey _) => some "run: strongbox init"
  | .store (.missingPassphrase name) => some s!"export {name} before running strongbox"
  | .store (.wrapMismatch _ _ found) => some s!"set keys.protection = \"{found.name}\" in strongbox.toml"
  | .store (.unsupported _) => some "use --protection passphrase or --protection identity"
  | .bulk (.notConfirmed _) => some "re-run with --yes to confirm"
  | _ => none

/-- Tells a failure and what to do about it. -/
def tellFailure (style : Style) (failure : Failure) : Run m Unit := do
  style.error failure.message
  (hintFor failure).forM fun hint => style.hint hint

/-- The environment variable that chooses which log events are told. -/
def logVariable : String := "STRONGBOX_LOG"

/-- The filter of log events: that of the environment, or else all events, or only those that a user should know. -/
def logFilter (isVerbose : Bool) : m Log.Filter := do
  let chosen := (← Host.envValue? logVariable).bind Log.directivesOf?
  let fallback := if isVerbose then Log.Level.debugging else Log.Level.warning
  let isPainted := (← Host.nonEmptyEnv? "NO_COLOR").isNone
  return ⟨chosen.getD [⟨Log.programName, fallback.rank⟩], isPainted⟩

/-- Runs the command line with a format for wrapped keys and gives its exit code. -/
def runWith (cipher : FileCipher) (words : List String) : m UInt8 := do
  let config ← Host.envValue? configVariable
  let keyDir ← Host.envValue? keyDirVariable
  match Invocation.ofWords words config keyDir with
  | .error .refused =>
    Host.complain (← Host.manual (.refusal words))
    return 2
  | .error .help =>
    Host.print (← Host.manual (.help words))
    return 0
  | .error .version =>
    Host.print versionText
    return 0
  | .ok invocation =>
    Host.listen (← logFilter invocation.isVerbose)
    let style ← Style.ofEnvironment
    match ← (execute cipher style invocation).run with
    | .ok () => return 0
    | .error failure =>
      discard (tellFailure (m := m) style failure).run
      return 1

/-- Runs the command line and gives its exit code. -/
def run (words : List String) : m UInt8 := runWith Age.fileCipher words

end SealedConfig.CommandLine
