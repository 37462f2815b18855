import SealedConfig.Credential.Resolver

/-!
# Health of credentials

Whether a credential is configured, present and loadable, without its material.
-/

namespace SealedConfig

/-- The state of a kind: whether a probe has a value or path, whether the material is there, and what finding it gave. -/
structure Health where
  kind : CredentialKind
  isConfigured : Bool
  isPresent : Bool
  source : Option CredentialSource
  failure : Option String
  deriving DecidableEq, Repr

namespace Health

/-- Whether finding the credential succeeded. -/
def isLoadable (health : Health) : Bool := health.source.isSome

/-- The form of a report. -/
def toJson (health : Health) : Json :=
  .object [("kind", .string health.kind.display), ("configured", .bool health.isConfigured),
    ("exists", .bool health.isPresent), ("loadable", .bool health.isLoadable),
    ("source", health.source.elim .null fun source => .string source.display),
    ("error", health.failure.elim .null .string)]

end Health

namespace Resolver

variable {m : Type → Type} [Host m]

/-- The value under a name, if there is a name and a value. -/
def valueOf? (look : String → m (Option String)) : Option String → m (Option String)
  | some name => look name
  | none => return none

/-- The paths that are configured for files. -/
def filePaths (resolver : Resolver) (names : Probes) : m (List String) := do
  let secret ← valueOf? resolver.lookup.config? names.secretFileKey
  let key ← valueOf? resolver.lookup.config? names.pathKey
  return secret.toList ++ key.toList

/-- Whether any of the paths leads to a file. -/
def anyFile : List String → m Bool
  | [] => return false
  | path :: rest => do if ← Host.isFile path then return true else anyFile rest

/-- The state of a kind. -/
def health (resolver : Resolver) (kind : CredentialKind) : m Health := do
  let names := resolver.probes kind
  let envSet := (← valueOf? resolver.lookup.env? names.env).isSome
  let paths ← resolver.filePaths names
  let inlineSet := (← valueOf? resolver.lookup.config? names.inlineKey).isSome
  let present ← anyFile paths
  let found ← (resolver.find kind).run
  let isConfigured := envSet || inlineSet || !paths.isEmpty
  let isPresent := envSet || inlineSet || present
  match found with
  | .ok credential => return ⟨kind, isConfigured, isPresent, some credential.source, none⟩
  | .error failure => return ⟨kind, isConfigured, isPresent, none, some failure.message⟩

end Resolver

end SealedConfig
