import SealedConfig.Document.Basic
import SealedConfig.Host.Basic

/-!
# Where probes look

Names are looked up in the environment and in the configuration. The configuration of a host is its environment, with
colons written as double underscores, over a document; there are also lookups of fixed values.
-/

namespace SealedConfig

/-- A source of environment variables and configuration values. -/
inductive Lookup where
  | fixed (environment configuration : List (String × String))
  | host (document : Option Document)

namespace Lookup

/-- The variable that stands for a configuration key. -/
def variableName (key : String) : String :=
  String.ofList (key.toList.flatMap fun c => if c = ':' then ['_', '_'] else [c])

variable {m : Type → Type} [Host m]

/-- The value of an environment variable, when it is not empty. -/
def env? (lookup : Lookup) (name : String) : m (Option String) :=
  match lookup with
  | .fixed environment _ => return (environment.lookup name).filter (· ≠ "")
  | .host _ => Host.nonEmptyEnv? name

/-- The value of a configuration key, when it is not empty. -/
def config? (lookup : Lookup) (key : String) : m (Option String) :=
  match lookup with
  | .fixed _ configuration => return (configuration.lookup key).filter (· ≠ "")
  | .host document => do
    match ← Host.nonEmptyEnv? (variableName key) with
    | some value => return some value
    | none => return (document.bind fun doc => doc.getText? (KeyPath.parse key)).filter (· ≠ "")

end Lookup

end SealedConfig
