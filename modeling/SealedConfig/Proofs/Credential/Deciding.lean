import SealedConfig.Proofs.Credential.Resolving

/-!
# The probe that decides

What each probe of a resolver hits in a world can be told before anything is loaded: the value of a variable, the content of a file, a
value of the configuration. The first hit alone decides what is found, whether it can be read and opened or not; without a hit all the
names that were looked under are reported.
-/

namespace SealedConfig

open Run

namespace Resolver

/-! ## Hits -/

/-- What a probe hits: a value under a name, or the content of a file, as far as there is a text to be read in it. -/
inductive Hit where
  | environment (name value : String)
  | secretFile (path : String) (content : Except FileFault String)
  | keyFile (path : String) (content : Except FileFault String)
  | inline (key value : String)

/-- What comes of opening material that was found at a place: a credential with the opened value, or the failure to open it. -/
def unsealed (kind : CredentialKind) (place : String) (source : CredentialSource) (finish : String → String) :
    Except Credential.OpenFault String → Except Failure Credential
  | .ok value => .ok ⟨kind, source, finish value⟩
  | .error fault => .error (.credential (.undecipherable kind.display place fault))

/-- What comes of a hit: the credential that it gives, or the failure to read or to open it. -/
def Hit.credential (resolver : Resolver) (kind : CredentialKind) : Hit → Except Failure Credential
  | .environment name value => .ok ⟨kind, .environment name, value⟩
  | .secretFile path (.error fault) => .error (.credential (.unreadable kind.display path fault))
  | .secretFile path (.ok content) =>
    if Envelope.isMarked (trim content) then unsealed kind path (.secretFile path) (trimmed kind) (resolver.openFile content)
    else .ok ⟨kind, .secretFile path, trimmed kind content⟩
  | .keyFile path (.error fault) => .error (.credential (.unreadable kind.display path fault))
  | .keyFile path (.ok content) =>
    if resolver.settings.encryptKeyFiles && resolver.provider.isSome && KeyFile.looksProtected content then
      unsealed kind path (.encryptedFile path) id (resolver.openFile content)
    else .ok ⟨kind, .plainFile path, content⟩
  | .inline key value =>
    if Envelope.isMarked value then unsealed kind key (.inline key) id (resolver.openInline value)
    else .ok ⟨kind, .inline key, value⟩

/-- A result that a hit can have: a credential of the kind from where the hit was, or a failure to read or to open what was there. -/
def Hit.Decides (kind : CredentialKind) (hit : Hit) (result : Except Failure Credential) : Prop :=
  match hit with
  | .environment name value => result = .ok ⟨kind, .environment name, value⟩
  | .secretFile path _ =>
    (∃ value, result = .ok ⟨kind, .secretFile path, value⟩) ∨
      (∃ fault, result = .error (.credential (.unreadable kind.display path fault))) ∨
      ∃ fault, result = .error (.credential (.undecipherable kind.display path fault))
  | .keyFile path _ =>
    (∃ value source, result = .ok ⟨kind, source, value⟩ ∧ (source = .encryptedFile path ∨ source = .plainFile path)) ∨
      (∃ fault, result = .error (.credential (.unreadable kind.display path fault))) ∨
      ∃ fault, result = .error (.credential (.undecipherable kind.display path fault))
  | .inline key _ =>
    (∃ value, result = .ok ⟨kind, .inline key, value⟩) ∨
      ∃ fault, result = .error (.credential (.undecipherable kind.display key fault))

section

variable (resolver : Resolver) (kind : CredentialKind) (u : World)

/-- The regular file that a configuration key names. -/
def namedFile? (key : String) : Option String :=
  (resolver.lookup.held? u key).filter fun path => (u.stat? path).any FileInfo.isFile

/-- What the probe of the environment hits: a variable that is not empty. -/
def environmentHit? : Option Hit :=
  (resolver.probes kind).env.bind fun name => (resolver.lookup.setting? u name).map (.environment name)

/-- What the probe of a secret file hits: a regular file. -/
def secretFileHit? : Option Hit :=
  (resolver.probes kind).secretFileKey.bind fun key =>
    (resolver.namedFile? u key).map fun path => .secretFile path (u.files.readText u.here path)

/-- What the probe of a key file hits: a regular file. -/
def keyFileHit? : Option Hit :=
  (resolver.probes kind).pathKey.bind fun key =>
    (resolver.namedFile? u key).map fun path => .keyFile path (u.files.readText u.here path)

/-- What the probe of the configuration hits: a value that is not empty. -/
def inlineHit? : Option Hit :=
  (resolver.probes kind).inlineKey.bind fun key => (resolver.lookup.held? u key).map (.inline key)

/-- What the probes hit, in the order in which they are made. -/
def hits : List (Option Hit) :=
  [resolver.environmentHit? kind u, resolver.secretFileHit? kind u, resolver.keyFileHit? kind u, resolver.inlineHit? kind u]

/-- What is reported to have been tried when nothing hits: one entry for each probe that has a name, in order. -/
def tried : List String :=
  ((resolver.probes kind).env.map fun name => s!"env {name}").toList ++
    (((resolver.probes kind).secretFileKey.map fun key => s!"secret file {key}").toList ++
      (((resolver.probes kind).pathKey.map fun key => (resolver.lookup.held? u key).getD s!"{key} (unset)").toList ++
        ((resolver.probes kind).inlineKey.map fun key => s!"config {key}").toList))

end

/-- The first hit of probes: those before it miss, and those behind it may hit or miss. -/
def IsFirst (hit : Hit) (probed : List (Option Hit)) : Prop :=
  ∃ missed behind, probed = List.replicate missed none ++ some hit :: behind

variable {u w : World} {resolver other : Resolver} {kind : CredentialKind} {hit : Hit}

/-- The first hit is the one that a search for hits finds. -/
theorem IsFirst.findSome? {probed : List (Option Hit)} (h : IsFirst hit probed) : probed.findSome? id = some hit := by
  obtain ⟨missed, behind, rfl⟩ := h
  induction missed with
  | zero => rfl
  | succ missed ih => exact ih

/-- What comes of a hit is the same for all that keep the same master key and treat key files alike. -/
theorem Hit.credential_congr (hprovider : other.provider = resolver.provider)
    (hset : other.settings.encryptKeyFiles = resolver.settings.encryptKeyFiles) (hit : Hit) :
    hit.credential other kind = hit.credential resolver kind := by
  have hfile (content : String) : other.openFile content = resolver.openFile content := by
    rw [openFile, openFile, protector, protector, hprovider]
  have hinline (value : String) : other.openInline value = resolver.openInline value := by
    rw [openInline, openInline, protector, protector, hprovider]
  cases hit with
  | environment name value => rfl
  | secretFile path content =>
    cases content with
    | error fault => rfl
    | ok content => rw [credential, credential, hfile]
  | keyFile path content =>
    cases content with
    | error fault => rfl
    | ok content => rw [credential, credential, hfile, hset, hprovider]
  | inline key value => rw [credential, credential, hinline]

/-- What comes of opening is a credential from where the material was, or the failure to open it there. -/
theorem unsealed_cases (kind : CredentialKind) (place : String) (source : CredentialSource) (finish : String → String)
    (result : Except Credential.OpenFault String) :
    (∃ value, unsealed kind place source finish result = .ok ⟨kind, source, value⟩) ∨
      ∃ fault, unsealed kind place source finish result = .error (.credential (.undecipherable kind.display place fault)) := by
  cases result with
  | error fault => exact Or.inr ⟨fault, rfl⟩
  | ok value => exact Or.inl ⟨finish value, rfl⟩

theorem Hit.decides_credential (resolver : Resolver) (kind : CredentialKind) (hit : Hit) :
    hit.Decides kind (hit.credential resolver kind) := by
  cases hit with
  | environment name value => rfl
  | secretFile path content =>
    cases content with
    | error fault => exact Or.inr (Or.inl ⟨fault, rfl⟩)
    | ok content =>
      rw [credential]
      split
      · exact (unsealed_cases ..).imp_right Or.inr
      · exact Or.inl ⟨_, rfl⟩
  | keyFile path content =>
    cases content with
    | error fault => exact Or.inr (Or.inl ⟨fault, rfl⟩)
    | ok content =>
      rw [credential]
      split
      · rcases unsealed_cases kind path (.encryptedFile path) id (resolver.openFile content) with ⟨value, heq⟩ | hfault
        · exact Or.inl ⟨value, _, heq, Or.inl rfl⟩
        · exact Or.inr (Or.inr hfault)
      · exact Or.inl ⟨_, _, rfl, Or.inr rfl⟩
  | inline key value =>
    rw [credential]
    split
    · exact unsealed_cases ..
    · exact Or.inl ⟨_, rfl⟩

/-- No hit leads to the report that nothing was found. -/
theorem Hit.Decides.ne_notFound {result : Except Failure Credential} (h : hit.Decides kind result) (tried : List String) :
    result ≠ .error (.credential (.notFound kind tried)) := by
  rintro rfl
  cases hit with
  | environment name value => cases h
  | secretFile path content => rcases h with ⟨_, h⟩ | ⟨_, h⟩ | ⟨_, h⟩ <;> cases h
  | keyFile path content => rcases h with ⟨_, _, h, -⟩ | ⟨_, h⟩ | ⟨_, h⟩ <;> cases h
  | inline key value => rcases h with ⟨_, h⟩ | ⟨_, h⟩ <;> cases h

/-- A hit gives credentials of the kind that was looked for. -/
theorem Hit.Decides.kind_eq {credential : Credential} (h : hit.Decides kind (.ok credential)) : credential.kind = kind := by
  cases hit with
  | environment name value =>
    cases h
    rfl
  | secretFile path content =>
    rcases h with ⟨_, h⟩ | ⟨_, h⟩ | ⟨_, h⟩ <;> cases h
    rfl
  | keyFile path content =>
    rcases h with ⟨_, _, h, -⟩ | ⟨_, h⟩ | ⟨_, h⟩ <;> cases h
    rfl
  | inline key value =>
    rcases h with ⟨_, h⟩ | ⟨_, h⟩ <;> cases h
    rfl

/-! ## Loading -/

/-- What loading from opened material yields. -/
theorem yields_opened (u : World) (kind : CredentialKind) (place : String) (source : CredentialSource) (finish : String → String)
    (result : Except Credential.OpenFault String) :
    Yields u (do return (⟨kind, source, finish (← opened kind place result)⟩ : Credential))
      (unsealed kind place source finish result) := by
  cases result with
  | error fault => exact (yields_settle u _ _).bind_error
  | ok value => exact (yields_settle u _ _).bind_ok (yields_pure u _)

theorem yields_loadSecretFile (path : String) :
    Yields u (resolver.loadSecretFile kind path) ((Hit.secretFile path (u.files.readText u.here path)).credential resolver kind) := by
  have hread : Yields u (readFile kind path) _ := yields_readFile path
  refine ((tells_inform _ _).yields u).bind_ok ?_
  cases hcontent : u.files.readText u.here path with
  | error fault =>
    rw [hcontent] at hread
    exact hread.bind_error
  | ok content =>
    rw [hcontent] at hread
    refine hread.bind_ok ?_
    rw [Hit.credential]
    split
    · exact yields_opened u kind path (.secretFile path) (trimmed kind) _
    · exact yields_pure u _

theorem yields_loadKeyFile (path : String) :
    Yields u (resolver.loadKeyFile kind path) ((Hit.keyFile path (u.files.readText u.here path)).credential resolver kind) := by
  have hread : Yields u (readFile kind path) _ := yields_readFile path
  unfold loadKeyFile
  cases hcontent : u.files.readText u.here path with
  | error fault =>
    rw [hcontent] at hread
    exact hread.bind_error
  | ok content =>
    rw [hcontent] at hread
    refine hread.bind_ok ?_
    rw [Hit.credential]
    dsimp only
    split
    · exact ((tells_inform _ _).yields u).bind_ok (yields_opened u kind path (.encryptedFile path) id _)
    · exact ((tells_warn _ _).yields u).bind_ok (yields_pure u _)

theorem yields_loadInline (key value : String) :
    Yields u (resolver.loadInline kind key value) ((Hit.inline key value).credential resolver kind) := by
  rw [loadInline, Hit.credential]
  split
  · exact yields_opened u kind key (.inline key) id _
  · exact ((tells_warn _ _).yields u).bind_ok (yields_pure u _)

/-! ## Probing -/

/-- What a probe comes to: what comes of its hit, or else what it tried. -/
def probed (resolver : Resolver) (kind : CredentialKind) (tried : List String) : Option Hit → Except Failure Probed
  | some hit => (hit.credential resolver kind).map .inl
  | none => .ok (.inr tried)

/-- A probe that loads from its hit comes to what comes of the hit. -/
theorem yields_inl {load : Run (StateM World) Credential} (h : Yields u load (hit.credential resolver kind)) (tried : List String) :
    Yields u (do return (.inl (← load) : Probed)) (resolver.probed kind tried (some hit)) := by
  rw [probed]
  cases hresult : hit.credential resolver kind with
  | error failure =>
    rw [hresult] at h
    exact h.bind_error
  | ok credential =>
    rw [hresult] at h
    exact h.bind_ok (yields_pure u _)

theorem yields_probeEnv (resolver : Resolver) (kind : CredentialKind) (u : World) :
    Yields u (resolver.probeEnv kind (resolver.probes kind).env)
      (resolver.probed kind ((resolver.probes kind).env.map fun name => s!"env {name}").toList (resolver.environmentHit? kind u)) := by
  unfold environmentHit?
  cases (resolver.probes kind).env with
  | none => exact yields_pure u _
  | some name =>
    refine (yields_setting resolver.lookup name).bind_ok ?_
    rw [Option.bind_some]
    cases resolver.lookup.setting? u name with
    | none => exact yields_pure u _
    | some value => exact ((tells_inform _ _).yields u).bind_ok (yields_pure u _)

/-- A probe of a named file comes to what comes of the file, if it is a regular one. -/
theorem yields_probeFile {load : String → Run (StateM World) Credential} {hitAt : String → Hit} {missing : String}
    {tried : Option String → String} {key : String}
    (hload : ∀ path, Yields u (load path) ((hitAt path).credential resolver kind)) :
    Yields u (resolver.probeFile kind load missing tried key)
      (resolver.probed kind [tried (resolver.lookup.held? u key)] ((resolver.namedFile? u key).map hitAt)) := by
  refine (yields_held resolver.lookup key).bind_ok ?_
  unfold namedFile?
  cases resolver.lookup.held? u key with
  | none => exact yields_pure u _
  | some path =>
    refine (yields_isFile path).bind_ok ?_
    rw [Option.filter_some]
    split
    · exact yields_inl (hload path) _
    · exact ((tells_debug _ _).yields u).bind_ok (yields_pure u _)

theorem yields_probeSecretFile (resolver : Resolver) (kind : CredentialKind) (u : World) :
    Yields u (resolver.probeSecretFile kind (resolver.probes kind).secretFileKey)
      (resolver.probed kind ((resolver.probes kind).secretFileKey.map fun key => s!"secret file {key}").toList
        (resolver.secretFileHit? kind u)) := by
  unfold secretFileHit?
  cases (resolver.probes kind).secretFileKey with
  | none => exact yields_pure u _
  | some key =>
    rw [probeSecretFile_some]
    exact yields_probeFile yields_loadSecretFile

theorem yields_probeKeyFile (resolver : Resolver) (kind : CredentialKind) (u : World) :
    Yields u (resolver.probeKeyFile kind (resolver.probes kind).pathKey)
      (resolver.probed kind
        ((resolver.probes kind).pathKey.map fun key => (resolver.lookup.held? u key).getD s!"{key} (unset)").toList
        (resolver.keyFileHit? kind u)) := by
  unfold keyFileHit?
  cases (resolver.probes kind).pathKey with
  | none => exact yields_pure u _
  | some key =>
    rw [probeKeyFile_some]
    exact yields_probeFile yields_loadKeyFile

theorem yields_probeInline (resolver : Resolver) (kind : CredentialKind) (u : World) :
    Yields u (resolver.probeInline kind (resolver.probes kind).inlineKey)
      (resolver.probed kind ((resolver.probes kind).inlineKey.map fun key => s!"config {key}").toList
        (resolver.inlineHit? kind u)) := by
  unfold inlineHit?
  cases (resolver.probes kind).inlineKey with
  | none => exact yields_pure u _
  | some key =>
    refine (yields_held resolver.lookup key).bind_ok ?_
    rw [Option.bind_some]
    cases resolver.lookup.held? u key with
    | none => exact yields_pure u _
    | some value => exact yields_inl (yields_loadInline key value) _

/-- Probes one after the other come to what comes of their first hit, or else to all that they tried. -/
theorem yields_firstHit_cons {probe : Run (StateM World) Probed} {rest : List (Run (StateM World) Probed)} {first : Option Hit}
    {behind : List (Option Hit)} (before : List String) {mine others : List String}
    (hprobe : Yields u probe (resolver.probed kind mine first))
    (hrest : Yields u (firstHit (before ++ mine) rest) (resolver.probed kind (before ++ mine ++ others) (behind.findSome? id))) :
    Yields u (firstHit before (probe :: rest))
      (resolver.probed kind (before ++ (mine ++ others)) ((first :: behind).findSome? id)) := by
  rw [firstHit, ← List.append_assoc]
  cases first with
  | none => exact hprobe.bind_ok hrest
  | some hit =>
    have hfound : resolver.probed kind (before ++ mine ++ others) ((some hit :: behind).findSome? id) =
        resolver.probed kind mine (some hit) := rfl
    rw [hfound]
    cases hresult : resolver.probed kind mine (some hit) with
    | error failure =>
      rw [hresult] at hprobe
      exact hprobe.bind_error
    | ok probed =>
      rw [hresult] at hprobe
      obtain ⟨credential, -, rfl⟩ := Outcome.exists_of_map hresult
      exact hprobe.bind_ok (yields_pure u _)

/-- What is found is what comes of the first hit, or else nothing, with all that was tried. -/
theorem outcome_find (resolver : Resolver) (kind : CredentialKind) (u : World) :
    (outcome (resolver.find kind) u).1 =
      match (resolver.hits kind u).findSome? id with
      | some hit => hit.credential resolver kind
      | none => .error (.credential (.notFound kind (resolver.tried kind u))) := by
  have hend (tried : List String) : Yields u (firstHit tried []) (resolver.probed kind (tried ++ []) (List.findSome? id [])) := by
    rw [List.append_nil]
    exact yields_pure u _
  have hprobes := yields_firstHit_cons [] (yields_probeEnv resolver kind u)
    (yields_firstHit_cons _ (yields_probeSecretFile resolver kind u)
      (yields_firstHit_cons _ (yields_probeKeyFile resolver kind u)
        (yields_firstHit_cons _ (yields_probeInline resolver kind u) (hend _))))
  rw [List.nil_append, List.append_nil] at hprobes
  change Yields u _ (resolver.probed kind (resolver.tried kind u) ((resolver.hits kind u).findSome? id)) at hprobes
  suffices hfind : Yields u (resolver.find kind) _ from (hfind u (.refl u)).1
  unfold find
  cases hfirst : (resolver.hits kind u).findSome? id with
  | none =>
    rw [hfirst] at hprobes
    exact hprobes.bind_ok (yields_fail u _)
  | some hit =>
    rw [hfirst, probed] at hprobes
    dsimp only
    cases hresult : hit.credential resolver kind with
    | error failure =>
      rw [hresult] at hprobes
      exact hprobes.bind_error
    | ok credential =>
      rw [hresult] at hprobes
      exact hprobes.bind_ok (yields_pure u _)

/-- What is found is of the kind that was looked for. -/
theorem kind_of_find {credential : Credential} (h : (outcome (resolver.find kind) u).1 = .ok credential) :
    credential.kind = kind := by
  rw [outcome_find] at h
  split at h
  · rename_i hit _
    have hdecides := hit.decides_credential resolver kind
    rw [h] at hdecides
    exact hdecides.kind_eq
  · cases h

/-- A probe hits first or none does. -/
theorem exists_isFirst (probed : List (Option Hit)) : (∀ hit ∈ probed, hit = none) ∨ ∃ hit, IsFirst hit probed := by
  induction probed with
  | nil => exact Or.inl nofun
  | cons first behind ih =>
    cases first with
    | some hit => exact Or.inr ⟨hit, 0, behind, rfl⟩
    | none =>
      rcases ih with hnone | ⟨hit, missed, rest, rfl⟩
      · exact Or.inl (List.forall_mem_cons.mpr ⟨rfl, hnone⟩)
      · exact Or.inr ⟨hit, missed + 1, rest, rfl⟩

/-- The first hit decides what is found. Nothing is found exactly when no probe hits, and then one entry is reported for each probe that
has a name, in order. Otherwise what is found is what comes of the first hit: a credential from there, or the failure to read or to open
what is there. Nothing else counts: with the same master key and the same treatment of key files, whatever has the same first hit finds
the same, wherever the probes behind it look and whatever they would find. -/
theorem find_decides (resolver : Resolver) (kind : CredentialKind) (u : World) :
    ((∃ tried, (outcome (resolver.find kind) u).1 = .error (.credential (.notFound kind tried))) ↔
        ∀ hit ∈ resolver.hits kind u, hit = none) ∧
      ((∀ hit ∈ resolver.hits kind u, hit = none) →
        (outcome (resolver.find kind) u).1 = .error (.credential (.notFound kind (resolver.tried kind u)))) ∧
      ∀ hit, IsFirst hit (resolver.hits kind u) →
        hit.Decides kind (outcome (resolver.find kind) u).1 ∧
          ∀ (other : Resolver) (w : World), other.provider = resolver.provider →
            other.settings.encryptKeyFiles = resolver.settings.encryptKeyFiles → IsFirst hit (other.hits kind w) →
              (outcome (other.find kind) w).1 = (outcome (resolver.find kind) u).1 := by
  have hnone (h : ∀ hit ∈ resolver.hits kind u, hit = none) :
      (outcome (resolver.find kind) u).1 = .error (.credential (.notFound kind (resolver.tried kind u))) := by
    have hmisses : (resolver.hits kind u).findSome? id = none := List.findSome?_eq_none_iff.mpr h
    rw [outcome_find, hmisses]
  have hfirst {resolver : Resolver} {u : World} {hit : Hit} (h : IsFirst hit (resolver.hits kind u)) :
      (outcome (resolver.find kind) u).1 = hit.credential resolver kind := by
    rw [outcome_find, h.findSome?]
  refine ⟨⟨?_, fun h => ⟨_, hnone h⟩⟩, hnone, ?_⟩
  · rintro ⟨tried, htried⟩
    rcases exists_isFirst (resolver.hits kind u) with hmisses | ⟨hit, hhit⟩
    · exact hmisses
    · rw [hfirst hhit] at htried
      exact absurd htried ((hit.decides_credential resolver kind).ne_notFound tried)
  · intro hit hhit
    rw [hfirst hhit]
    refine ⟨hit.decides_credential resolver kind, ?_⟩
    intro other w hprovider hset hother
    rw [hfirst hother, hit.credential_congr hprovider hset]

end Resolver

end SealedConfig
