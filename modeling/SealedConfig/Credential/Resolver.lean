import SealedConfig.Credential.Cache
import SealedConfig.Credential.KeyFile
import SealedConfig.Credential.Lookup

/-!
# Finding credentials

A credential is looked for in a fixed order and the first hit decides: an environment variable, a mounted secret file, a
key file, and for passphrases a value in the configuration. A hit that cannot be read or opened is a failure, never a
reason to look further.
-/

namespace SealedConfig

/-- Where to look, what to open stored material with, and how. -/
structure Resolver where
  lookup : Lookup
  provider : Option Provider
  settings : CredentialSettings

namespace Resolver

variable {m : Type → Type} [Host m]

/-- The names in effect for a kind. -/
def probes (resolver : Resolver) (kind : CredentialKind) : Probes := resolver.settings.probes kind

/-- The protector of a purpose, if there is a master key. -/
def protector (resolver : Resolver) (purpose : String) : Except Credential.OpenFault Protector :=
  match resolver.provider with
  | some provider => .ok (provider.protector purpose)
  | none => .error .noMasterKey

/-- The text in the protected content of a file. -/
def openFile (resolver : Resolver) (content : String) : Except Credential.OpenFault String :=
  match resolver.protector Protector.keyFiles with
  | .error fault => .error fault
  | .ok p => (KeyFile.disclose p content).mapError .envelope

/-- The text in an envelope of the configuration. -/
def openInline (resolver : Resolver) (value : String) : Except Credential.OpenFault String :=
  match resolver.protector Protector.configSecrets with
  | .error fault => .error fault
  | .ok p => (Envelope.disclose p value).mapError .envelope

/-- The text of a file with material of a kind. -/
def readFile (kind : CredentialKind) (path : String) : Run m String :=
  Run.attempt (fun fault => .credential (.unreadable kind.display path fault)) (Host.readText path)

/-- A passphrase without blanks around it; other material as it is. -/
def trimmed (kind : CredentialKind) (value : String) : String := if kind = .passphrase then trim value else value

/-- Opened material, or the failure to open that of a kind at a place. -/
def opened (kind : CredentialKind) (place : String) (result : Except Credential.OpenFault String) : Run m String :=
  Run.settle (fun source => .credential (.undecipherable kind.display place source)) result

/-- The credential in a mounted secret file. -/
def loadSecretFile (resolver : Resolver) (kind : CredentialKind) (path : String) : Run m Credential := do
  Run.inform "loading credential from secret file" [Log.plain "kind" kind.display, Log.plain "path" path]
  let content ← readFile kind path
  let value ←
    if Envelope.isMarked (trim content) then opened kind path (resolver.openFile content) else pure content
  return ⟨kind, .secretFile path, trimmed kind value⟩

/-- The credential in a key file, which is opened when key files are kept protected. -/
def loadKeyFile (resolver : Resolver) (kind : CredentialKind) (path : String) : Run m Credential := do
  let content ← readFile kind path
  let fields := [Log.plain "kind" kind.display, Log.plain "path" path]
  if resolver.settings.encryptKeyFiles && resolver.provider.isSome && KeyFile.looksProtected content then
    Run.inform "decrypting key file" fields
    return ⟨kind, .encryptedFile path, ← opened kind path (resolver.openFile content)⟩
  else
    Run.warn "loading unencrypted key file" fields
    return ⟨kind, .plainFile path, content⟩

/-- The credential in a value of the configuration. -/
def loadInline (resolver : Resolver) (kind : CredentialKind) (key value : String) : Run m Credential := do
  if Envelope.isMarked value then
    return ⟨kind, .inline key, ← opened kind key (resolver.openInline value)⟩
  else
    Run.warn "loading credential from configuration in plain text"
      [Log.plain "kind" kind.display, Log.plain "key" key]
    return ⟨kind, .inline key, value⟩

/-- What a probe gives: the credential that decides, or the texts of what was tried. -/
abbrev Probed := Credential ⊕ List String

/-- Looks in an environment variable. -/
def probeEnv (resolver : Resolver) (kind : CredentialKind) : Option String → Run m Probed
  | none => return .inr []
  | some name => do
    match ← Run.step (resolver.lookup.env? name) with
    | some value =>
      Run.inform "loading credential from environment variable"
        [Log.plain "kind" kind.display, Log.plain "variable" name]
      return .inl ⟨kind, .environment name, value⟩
    | none => return .inr [s!"env {name}"]

/-- Looks in the secret file that a configuration key names. -/
def probeSecretFile (resolver : Resolver) (kind : CredentialKind) : Option String → Run m Probed
  | none => return .inr []
  | some key => do
    match ← Run.step (resolver.lookup.config? key) with
    | some path =>
      if ← Run.isFile path then return .inl (← resolver.loadSecretFile kind path)
      else
        Run.debug "secret file missing" [Log.plain "kind" kind.display, Log.plain "path" path]
        return .inr [s!"secret file {key}"]
    | none => return .inr [s!"secret file {key}"]

/-- Looks in the key file that a configuration key names. -/
def probeKeyFile (resolver : Resolver) (kind : CredentialKind) : Option String → Run m Probed
  | none => return .inr []
  | some key => do
    match ← Run.step (resolver.lookup.config? key) with
    | some path =>
      if ← Run.isFile path then return .inl (← resolver.loadKeyFile kind path)
      else
        Run.debug "key file missing" [Log.plain "kind" kind.display, Log.plain "path" path]
        return .inr [path]
    | none => return .inr [s!"{key} (unset)"]

/-- Looks in a value of the configuration. -/
def probeInline (resolver : Resolver) (kind : CredentialKind) : Option String → Run m Probed
  | none => return .inr []
  | some key => do
    match ← Run.step (resolver.lookup.config? key) with
    | some value => return .inl (← resolver.loadInline kind key value)
    | none => return .inr [s!"config {key}"]

/-- Takes probes one after the other until one gives a credential; if none does, the texts of all that was tried. -/
def firstHit (tried : List String) : List (Run m Probed) → Run m Probed
  | [] => return .inr tried
  | probe :: rest => do
    match ← probe with
    | .inl credential => return .inl credential
    | .inr more => firstHit (tried ++ more) rest

/-- The credential of a kind, looked for anew. -/
def find (resolver : Resolver) (kind : CredentialKind) : Run m Credential := do
  let names := resolver.probes kind
  match ← firstHit [] [resolver.probeEnv kind names.env, resolver.probeSecretFile kind names.secretFileKey,
      resolver.probeKeyFile kind names.pathKey, resolver.probeInline kind names.inlineKey] with
  | .inl credential => return credential
  | .inr tried => Run.fail (.credential (.notFound kind tried))

/-- The credential of a kind, from the cache if it is fresh there and else looked for anew and kept. -/
def findCached (resolver : Resolver) (cache : CredentialCache) (kind : CredentialKind) :
    m (Except Failure Credential × CredentialCache) := do
  match cache.get (← Host.ticks) kind with
  | (some credential, cache) => return (.ok credential, cache)
  | (none, cache) =>
    match ← (resolver.find kind).run with
    | .ok credential => return (.ok credential, cache.put (← Host.ticks) credential)
    | .error failure => return (.error failure, cache)

/-- The cache that a resolver starts with. -/
def freshCache (resolver : Resolver) : CredentialCache := .empty (resolver.settings.cacheSeconds * 1000)

/-- What a resolver with its cache shows of itself. -/
def shown (resolver : Resolver) (cache : CredentialCache) : String :=
  "Resolver \x7b encrypt_key_files: " ++ toString resolver.settings.encryptKeyFiles ++ ", has_provider: " ++
    toString resolver.provider.isSome ++ ", cache: " ++ cache.shown ++ ", .. \x7d"

end Resolver

end SealedConfig
