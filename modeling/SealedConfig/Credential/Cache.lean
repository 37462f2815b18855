import SealedConfig.Credential.Basic

/-!
# Credentials kept for a while

Each kind's last credential, kept for less than a fixed time. Nothing is kept when that time is zero; an entry that is
too old is dropped when it is asked for.
-/

namespace SealedConfig

/-- A credential and when it was kept, in milliseconds. -/
structure CacheEntry where
  credential : Credential
  stored : Nat
  deriving DecidableEq, Repr

/-- Credentials by kind, and for how many milliseconds they are kept. -/
structure CredentialCache where
  lifetime : Nat
  entries : List (CredentialKind × CacheEntry)
  deriving DecidableEq, Repr

namespace CredentialCache

/-- The cache that keeps nothing yet. -/
def empty (lifetime : Nat) : CredentialCache := ⟨lifetime, []⟩

/-- The entries without that of a kind. -/
def without (kind : CredentialKind) (entries : List (CredentialKind × CacheEntry)) : List (CredentialKind × CacheEntry) :=
  entries.filter fun entry => entry.1 != kind

/-- The cache without what it keeps of a kind. -/
def invalidate (cache : CredentialCache) (kind : CredentialKind) : CredentialCache :=
  { cache with entries := without kind cache.entries }

/-- The cache without anything. -/
def clear (cache : CredentialCache) : CredentialCache := { cache with entries := [] }

/-- The credential of a kind that is fresh at a time, and the cache without one that is not. -/
def get (cache : CredentialCache) (now : Nat) (kind : CredentialKind) : Option Credential × CredentialCache :=
  match cache.entries.lookup kind with
  | none => (none, cache)
  | some entry =>
    if now - entry.stored < cache.lifetime then (some entry.credential, cache) else (none, cache.invalidate kind)

/-- The cache with a credential kept from a time on. -/
def put (cache : CredentialCache) (now : Nat) (credential : Credential) : CredentialCache :=
  if cache.lifetime = 0 then cache
  else { cache with entries := (credential.kind, ⟨credential, now⟩) :: without credential.kind cache.entries }

/-- How many credentials are kept. -/
def size (cache : CredentialCache) : Nat := cache.entries.length

/-- A span of milliseconds in its largest unit. -/
def shownSpan (milliseconds : Nat) : String :=
  if milliseconds = 0 then "0ns"
  else if milliseconds < 1000 then s!"{milliseconds}ms"
  else
    let rest := milliseconds % 1000
    let places := (1000 + rest).repr.toList.drop 1
    let fraction := (places.reverse.dropWhile (· = '0')).reverse
    toString (milliseconds / 1000) ++ (if rest = 0 then "" else "." ++ String.ofList fraction) ++ "s"

/-- What a cache shows of itself. -/
def shown (cache : CredentialCache) : String :=
  "CredentialCache \x7b ttl: " ++ shownSpan cache.lifetime ++ ", entries: " ++ toString cache.size ++ " \x7d"

end CredentialCache

end SealedConfig
