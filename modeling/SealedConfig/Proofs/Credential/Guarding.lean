import SealedConfig.Proofs.Cipher.Envelope
import SealedConfig.Proofs.Credential.Deciding

/-!
# Envelopes as key material

An envelope that the deciding probe comes upon is opened, or nothing is found: what is handed over is shorter than the envelope, so it
is never the envelope itself. The exception is a key file while key files are not kept protected or no master key is there to open them,
which is handed over as the plain file that it is taken for.
-/

namespace SealedConfig

open Run

namespace Resolver

/-! ## What is opened -/

/-- Whether a resolver opens key files: they are kept protected, and there is a master key. -/
def opensKeyFiles (resolver : Resolver) : Bool := resolver.settings.encryptKeyFiles && resolver.provider.isSome

/-- An envelope opens to a text under a purpose of the master key. -/
def Reveals (resolver : Resolver) (purpose stored text : String) : Prop :=
  ∃ provider, resolver.provider = some provider ∧ Envelope.disclose (provider.protector purpose) stored = .ok text

/-- A hit holds an envelope, which is opened under a purpose: the content of a file without the blanks around it, or an inline value. -/
inductive Hit.Encloses (resolver : Resolver) : Hit → (purpose stored : String) → Prop where
  | secretFile {path content : String} (marked : Envelope.isMarked (trim content) = true) :
      Encloses resolver (.secretFile path (.ok content)) Protector.keyFiles (trim content)
  | keyFile {path content : String} (marked : Envelope.isMarked (trim content) = true) (opens : resolver.opensKeyFiles = true) :
      Encloses resolver (.keyFile path (.ok content)) Protector.keyFiles (trim content)
  | inline {key value : String} (marked : Envelope.isMarked value = true) :
      Encloses resolver (.inline key value) Protector.configSecrets value

/-- What is done to a text that a hit opens to: a passphrase from a secret file loses the blanks around it. -/
def Hit.finish (kind : CredentialKind) : Hit → String → String
  | .secretFile _ _ => trimmed kind
  | _ => id

variable {u : World} {resolver : Resolver} {kind : CredentialKind} {hit : Hit} {purpose stored text content value : String}

theorem openFile_eq_ok_iff (hm : Envelope.isMarked (trim content) = true) :
    resolver.openFile content = .ok text ↔ resolver.Reveals Protector.keyFiles (trim content) text := by
  unfold openFile protector Reveals
  cases resolver.provider with
  | none => simp
  | some provider =>
    dsimp only
    rw [Outcome.mapError_eq_ok_iff, KeyFile.disclose, if_pos hm]
    simp

theorem openInline_eq_ok_iff :
    resolver.openInline value = .ok text ↔ resolver.Reveals Protector.configSecrets value text := by
  unfold openInline protector Reveals
  cases resolver.provider with
  | none => simp
  | some provider =>
    dsimp only
    rw [Outcome.mapError_eq_ok_iff]
    simp

/-- What comes of a hit that holds an envelope is what comes of opening that. -/
theorem Hit.Encloses.credential_eq (h : hit.Encloses resolver purpose stored) (kind : CredentialKind) :
    ∃ place source result, hit.credential resolver kind = unsealed kind place source (hit.finish kind) result ∧
      ∀ text, result = .ok text ↔ resolver.Reveals purpose stored text := by
  cases h with
  | @secretFile path content marked =>
    refine ⟨path, .secretFile path, resolver.openFile content, ?_, fun text => openFile_eq_ok_iff marked⟩
    rw [credential, if_pos marked]
    rfl
  | @keyFile path content marked opens =>
    refine ⟨path, .encryptedFile path, resolver.openFile content, ?_, fun text => openFile_eq_ok_iff marked⟩
    have hlooks : KeyFile.looksProtected content = true := by
      rw [KeyFile.looksProtected, marked]
      rfl
    have hgate : (resolver.settings.encryptKeyFiles && resolver.provider.isSome && KeyFile.looksProtected content) = true := by
      rw [hlooks, Bool.and_true]
      exact opens
    rw [credential, if_pos hgate]
    rfl
  | @inline key _ marked =>
    refine ⟨key, .inline key, resolver.openInline stored, ?_, fun text => openInline_eq_ok_iff⟩
    rw [credential, if_pos marked]
    rfl

theorem Hit.Encloses.isMarked (h : hit.Encloses resolver purpose stored) : Envelope.isMarked stored = true := by
  cases h with
  | secretFile marked => exact marked
  | keyFile marked _ => exact marked
  | inline marked => exact marked

/-- A text is no shorter than what is made of it. -/
theorem Hit.length_finish_le (kind : CredentialKind) (hit : Hit) (text : String) :
    (Bytes.ofText (hit.finish kind text)).length ≤ (Bytes.ofText text).length := by
  cases hit with
  | secretFile path content =>
    rw [finish, trimmed]
    split
    · exact Bytes.length_ofText_le (trim_sublist text.toList)
    · exact Nat.le_refl _
  | environment name value => exact Nat.le_refl _
  | keyFile path content => exact Nat.le_refl _
  | inline key value => exact Nat.le_refl _

/-! ## What is handed over -/

/-- What a hit that holds an envelope gives is what the envelope opens to, which is shorter than the envelope. -/
theorem Hit.Encloses.of_ok (h : hit.Encloses resolver purpose stored) {credential : Credential}
    (hok : hit.credential resolver kind = .ok credential) :
    ∃ text, resolver.Reveals purpose stored text ∧ credential.value = hit.finish kind text ∧
      (Bytes.ofText credential.value).length < (Bytes.ofText stored).length := by
  obtain ⟨place, source, result, heq, hreveals⟩ := h.credential_eq kind
  rw [heq] at hok
  cases result with
  | error fault => cases hok
  | ok text =>
    obtain rfl := Except.ok.inj hok
    obtain ⟨provider, hprovider, hopen⟩ := (hreveals text).mp rfl
    refine ⟨text, ⟨provider, hprovider, hopen⟩, rfl, ?_⟩
    exact Nat.lt_of_le_of_lt (hit.length_finish_le kind text) (Envelope.length_of_disclose h.isMarked hopen)

/-- A hit that holds an envelope that does not open is a failure to open it. -/
theorem Hit.Encloses.of_not_reveals (h : hit.Encloses resolver purpose stored) (hnone : ∀ text, ¬resolver.Reveals purpose stored text) :
    ∃ place fault, hit.credential resolver kind = .error (.credential (.undecipherable kind.display place fault)) := by
  obtain ⟨place, source, result, heq, hreveals⟩ := h.credential_eq kind
  rw [heq]
  cases result with
  | error fault => exact ⟨place, fault, rfl⟩
  | ok text => exact absurd ((hreveals text).mp rfl) (hnone text)

/-- A key file is handed over as it stands when key files are not opened. -/
theorem credential_keyFile_plain (hplain : resolver.opensKeyFiles = false) (path content : String) :
    (Hit.keyFile path (.ok content)).credential resolver kind = .ok ⟨kind, .plainFile path, content⟩ := by
  unfold opensKeyFiles at hplain
  rw [Hit.credential, hplain]
  rfl

/-- No envelope is handed over where one is opened. A credential that is found comes from the first hit, and if that is a secret file
with an envelope in it, an inline envelope, or a key file with one while key files are opened, then its value is what the envelope opens
to under the master key, and shorter than the envelope; if the envelope does not open, or no master key is there, then the failure to
open it is all that is found. A key file is handed over as it stands when key files are not opened. -/
theorem find_guards (resolver : Resolver) (kind : CredentialKind) (u : World) :
    (∀ credential, (outcome (resolver.find kind) u).1 = .ok credential →
      ∃ hit, IsFirst hit (resolver.hits kind u) ∧ hit.Decides kind (.ok credential) ∧
        ∀ purpose stored, hit.Encloses resolver purpose stored →
          ∃ text, resolver.Reveals purpose stored text ∧ credential.value = hit.finish kind text ∧
            (Bytes.ofText credential.value).length < (Bytes.ofText stored).length) ∧
      (∀ hit purpose stored, IsFirst hit (resolver.hits kind u) → hit.Encloses resolver purpose stored →
        (∀ text, ¬resolver.Reveals purpose stored text) →
          ∃ place fault, (outcome (resolver.find kind) u).1 = .error (.credential (.undecipherable kind.display place fault))) ∧
      ∀ path content, IsFirst (.keyFile path (.ok content)) (resolver.hits kind u) → resolver.opensKeyFiles = false →
        (outcome (resolver.find kind) u).1 = .ok ⟨kind, .plainFile path, content⟩ := by
  have hfirst {hit : Hit} (h : IsFirst hit (resolver.hits kind u)) :
      (outcome (resolver.find kind) u).1 = hit.credential resolver kind := by
    rw [outcome_find, h.findSome?]
  refine ⟨?_, ?_, ?_⟩
  · intro credential hok
    rcases exists_isFirst (resolver.hits kind u) with hnone | ⟨hit, hhit⟩
    · have hmisses : (resolver.hits kind u).findSome? id = none := List.findSome?_eq_none_iff.mpr hnone
      rw [outcome_find, hmisses] at hok
      cases hok
    · rw [hfirst hhit] at hok
      exact ⟨hit, hhit, hok ▸ hit.decides_credential resolver kind, fun purpose stored h => h.of_ok hok⟩
  · intro hit purpose stored hhit hencloses hnone
    rw [hfirst hhit]
    exact hencloses.of_not_reveals hnone
  · intro path content hhit hplain
    rw [hfirst hhit]
    exact credential_keyFile_plain hplain path content

/-- A resolver with a master key that finds a key file in its configuration, and does not keep key files protected. -/
def plainResolver : Resolver :=
  ⟨.fixed [] [("Signing:PrivateKeyPath", "k.pem")], some ⟨⟨Vector.replicate 32 0⟩, "app"⟩, {}⟩

/-- A world with an envelope in that key file. -/
def envelopeWorld : World where
  files := ⟨[(["k.pem"], .file (Bytes.ofText "ENCRYPTED:AAAA") 0o600)]⟩
  here := []
  environment := []
  fallbackHome := none
  now := none
  ticks := 0
  randomness _ := 0
  drawn := 0
  input := []
  output := ""
  complaints := ""
  filter := .silent

/-- There the envelope itself is handed over as the private key, though it does not open. -/
theorem find_guards_plainFile :
    (outcome (plainResolver.find .privateKey) envelopeWorld).1 = .ok ⟨.privateKey, .plainFile "k.pem", "ENCRYPTED:AAAA"⟩ ∧
      Envelope.isMarked (trim "ENCRYPTED:AAAA") = true ∧
      ∀ text, ¬plainResolver.Reveals Protector.keyFiles (trim "ENCRYPTED:AAAA") text := by
  refine ⟨by rfl, by decide, ?_⟩
  rintro text ⟨provider, -, hopen⟩
  have hfails : Envelope.disclose (provider.protector Protector.keyFiles) (trim "ENCRYPTED:AAAA") =
      .error (.undecipherable ⟨Protector.keyFiles, .truncated⟩) := by rfl
  rw [hfails] at hopen
  cases hopen

end Resolver

end SealedConfig
