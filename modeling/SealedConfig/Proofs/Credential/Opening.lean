import SealedConfig.Proofs.Cipher.Authentic
import SealedConfig.Proofs.Credential.Resolving

/-!
# What a credential is read from

A credential that a resolver finds is the value of a variable, the content of a file or a value of the configuration. Material that is
marked is taken only for a text that it authenticates, the bare marker apart; it passes as it stands only from a variable, and from a
key file when key files are not kept protected.
-/

namespace SealedConfig

open Run

namespace Resolver

/-- Marked material is taken for a text under a purpose: there is a master key, and its protector accepts the material for the text. -/
def Accepts (resolver : Resolver) (purpose material text : String) : Prop :=
  ∃ provider, resolver.provider = some provider ∧ Envelope.Accepts (provider.protector purpose) material text

/-- Material without a marker is opened as a bare protected text: both are empty, or it is a sealing of the text. -/
def AcceptsBare (resolver : Resolver) (material text : String) : Prop :=
  ∃ provider, resolver.provider = some provider ∧
    (material = "" ∧ text = "" ∨ (provider.protector Protector.keyFiles).Seals material text)

/-- The value of a credential is what stands, in a world, where the credential was found. Marked material there is opened, except in
a variable and in a key file that is read as a plain one. -/
def Grants (resolver : Resolver) (u : World) (credential : Credential) : Prop :=
  match credential.source with
  | .environment name => resolver.lookup.setting? u name = some credential.value
  | .secretFile path => ∃ content text, u.files.readText u.here path = .ok content ∧
      credential.value = trimmed credential.kind text ∧
      if Envelope.isMarked (trim content) then resolver.Accepts Protector.keyFiles (trim content) text else text = content
  | .encryptedFile path => ∃ content, u.files.readText u.here path = .ok content ∧
      if Envelope.isMarked (trim content) then resolver.Accepts Protector.keyFiles (trim content) credential.value
      else resolver.AcceptsBare (trim content) credential.value
  | .plainFile path => u.files.readText u.here path = .ok credential.value ∧
      ¬(resolver.settings.encryptKeyFiles = true ∧ resolver.provider.isSome = true ∧
        KeyFile.looksProtected credential.value = true)
  | .inline key => ∃ stored, resolver.lookup.held? u key = some stored ∧
      if Envelope.isMarked stored then resolver.Accepts Protector.configSecrets stored credential.value
      else credential.value = stored

variable {u : World} {resolver : Resolver} {kind : CredentialKind}

/-! ## Opening -/

/-- An inline value that opens is accepted for its text. -/
theorem accepts_of_openInline {value text : String} (hm : Envelope.isMarked value = true)
    (h : resolver.openInline value = .ok text) : resolver.Accepts Protector.configSecrets value text := by
  rw [openInline, protector] at h
  cases hprovider : resolver.provider with
  | none =>
    rw [hprovider] at h
    cases h
  | some provider =>
    rw [hprovider] at h
    exact ⟨provider, hprovider, (Envelope.disclose_eq_ok_iff hm).mp (Outcome.mapError_eq_ok_iff.mp h)⟩

/-- The content of a file is opened by the protector for key files. -/
theorem exists_provider_of_openFile {content text : String} (h : resolver.openFile content = .ok text) :
    ∃ provider, resolver.provider = some provider ∧ KeyFile.disclose (provider.protector Protector.keyFiles) content = .ok text := by
  rw [openFile, protector] at h
  cases hprovider : resolver.provider with
  | none =>
    rw [hprovider] at h
    cases h
  | some provider =>
    rw [hprovider] at h
    exact ⟨provider, rfl, Outcome.mapError_eq_ok_iff.mp h⟩

/-- The marked content of a file that opens is accepted for its text. -/
theorem accepts_of_openFile {content text : String} (hm : Envelope.isMarked (trim content) = true)
    (h : resolver.openFile content = .ok text) : resolver.Accepts Protector.keyFiles (trim content) text := by
  obtain ⟨provider, hprovider, hopen⟩ := exists_provider_of_openFile h
  rw [KeyFile.disclose, if_pos hm] at hopen
  exact ⟨provider, hprovider, (Envelope.disclose_eq_ok_iff hm).mp hopen⟩

/-- The content of a file that opens without a marker is accepted bare for its text. -/
theorem acceptsBare_of_openFile {content text : String} (hm : ¬Envelope.isMarked (trim content) = true)
    (h : resolver.openFile content = .ok text) : resolver.AcceptsBare (trim content) text := by
  obtain ⟨provider, hprovider, hopen⟩ := exists_provider_of_openFile h
  rw [KeyFile.disclose, if_neg hm] at hopen
  have hbare := Protector.unprotect_eq_ok_iff.mp (Outcome.mapError_eq_ok_iff.mp hopen)
  rw [trim_trim] at hbare
  exact ⟨provider, hprovider, hbare⟩

/-- What is opened of material comes to a text that the material was opened to. -/
theorem steady_opened_of_ok (u : World) (kind : CredentialKind) (place : String) (result : Except Credential.OpenFault String) :
    Matches u (fun text => result = .ok text) (opened kind place result) (opened kind place result) := by
  refine (yields_settle u _ result).matches (yields_settle u _ result) ?_
  intro text hok
  exact Outcome.mapError_eq_ok_iff.mp hok

/-! ## Loading -/

/-- A text that is read of a file stands in it. -/
theorem steady_readFile (u : World) (kind : CredentialKind) (path : String) :
    Matches u (fun content => u.files.readText u.here path = .ok content) (readFile kind path) (readFile kind path) := by
  refine (yields_readFile path).matches (yields_readFile path) ?_
  intro content hok
  exact Outcome.mapError_eq_ok_iff.mp hok

theorem grants_loadSecretFile (path : String) :
    Matches u (Grants resolver u) (resolver.loadSecretFile kind path) (resolver.loadSecretFile kind path) := by
  rw [loadSecretFile]
  refine Matches.of_tells (tells_inform _ _) ?_
  refine (steady_readFile u kind path).bind ?_
  intro content hcontent
  dsimp only
  split
  · rename_i hm
    refine (steady_opened_of_ok u kind path _).bind ?_
    intro text hopen
    refine matches_pure ⟨content, text, hcontent, rfl, ?_⟩
    rw [if_pos hm]
    exact accepts_of_openFile hm hopen
  · rename_i hm
    refine matches_pure ⟨content, content, hcontent, rfl, ?_⟩
    rw [if_neg hm]

theorem grants_loadKeyFile (path : String) :
    Matches u (Grants resolver u) (resolver.loadKeyFile kind path) (resolver.loadKeyFile kind path) := by
  rw [loadKeyFile]
  refine (steady_readFile u kind path).bind ?_
  intro content hcontent
  dsimp only
  split
  · refine Matches.of_tells (tells_inform _ _) ?_
    refine (steady_opened_of_ok u kind path _).bind ?_
    intro text hopen
    refine matches_pure ⟨content, hcontent, ?_⟩
    by_cases hm : Envelope.isMarked (trim content) = true
    · rw [if_pos hm]
      exact accepts_of_openFile hm hopen
    · rw [if_neg hm]
      exact acceptsBare_of_openFile hm hopen
  · rename_i hplain
    refine Matches.of_tells (tells_warn _ _) ?_
    refine matches_pure ⟨hcontent, ?_⟩
    rintro ⟨hset, hprovider, hlooks⟩
    exact hplain (by rw [hset, hprovider, hlooks]; rfl)

theorem grants_loadInline {key value : String} (h : resolver.lookup.held? u key = some value) :
    Matches u (Grants resolver u) (resolver.loadInline kind key value) (resolver.loadInline kind key value) := by
  rw [loadInline]
  split
  · rename_i hm
    refine (steady_opened_of_ok u kind key _).bind ?_
    intro text hopen
    refine matches_pure ⟨value, h, ?_⟩
    rw [if_pos hm]
    exact accepts_of_openInline hm hopen
  · rename_i hm
    refine Matches.of_tells (tells_warn _ _) ?_
    refine matches_pure ⟨value, h, ?_⟩
    rw [if_neg hm]

/-! ## Probing -/

theorem grants_probeEnv (name : Option String) :
    Matches u (HitsWith (Grants resolver u)) (resolver.probeEnv kind name) (resolver.probeEnv kind name) := by
  cases name with
  | none => exact matches_pure (hitsWith_inr [])
  | some name =>
    simp only [probeEnv]
    refine Matches.of_yields (yields_setting _ name) (yields_setting _ name) ?_
    cases hvalue : resolver.lookup.setting? u name with
    | some value =>
      refine Matches.of_tells (tells_inform _ _) ?_
      exact matches_pure (hitsWith_inl hvalue)
    | none => exact matches_pure (hitsWith_inr _)

/-- A probe of a file grants what is loaded from the file. -/
theorem grants_probeFile {load : String → Run (StateM World) Credential} {missing : String} {tried : Option String → String}
    (hload : ∀ path, Matches u (Grants resolver u) (load path) (load path)) (key : String) :
    Matches u (HitsWith (Grants resolver u)) (resolver.probeFile kind load missing tried key)
      (resolver.probeFile kind load missing tried key) := by
  unfold probeFile
  refine Matches.of_yields (yields_held _ key) (yields_held _ key) ?_
  cases resolver.lookup.held? u key with
  | none => exact matches_pure (hitsWith_inr _)
  | some path =>
    refine Matches.of_yields (yields_isFile path) (yields_isFile path) ?_
    split
    · exact (hload path).bind fun credential hgrants => matches_pure (hitsWith_inl hgrants)
    · refine Matches.of_tells (tells_debug _ _) ?_
      exact matches_pure (hitsWith_inr _)

theorem grants_probeInline (key : Option String) :
    Matches u (HitsWith (Grants resolver u)) (resolver.probeInline kind key) (resolver.probeInline kind key) := by
  cases key with
  | none => exact matches_pure (hitsWith_inr [])
  | some key =>
    simp only [probeInline]
    refine Matches.of_yields (yields_held _ key) (yields_held _ key) ?_
    cases hvalue : resolver.lookup.held? u key with
    | none => exact matches_pure (hitsWith_inr _)
    | some value => exact (grants_loadInline hvalue).bind fun credential hgrants => matches_pure (hitsWith_inl hgrants)

/-- A credential that is found is granted by what stands where it was found. -/
theorem grants_find (resolver : Resolver) (kind : CredentialKind) (u : World) :
    Matches u (Grants resolver u) (resolver.find kind) (resolver.find kind) := by
  have hsecret (key : Option String) :
      Matches u (HitsWith (Grants resolver u)) (resolver.probeSecretFile kind key) (resolver.probeSecretFile kind key) := by
    cases key with
    | none => exact matches_pure (hitsWith_inr [])
    | some key =>
      rw [probeSecretFile_some]
      exact grants_probeFile (fun path => grants_loadSecretFile path) key
  have hkey (key : Option String) :
      Matches u (HitsWith (Grants resolver u)) (resolver.probeKeyFile kind key) (resolver.probeKeyFile kind key) := by
    cases key with
    | none => exact matches_pure (hitsWith_inr [])
    | some key =>
      rw [probeKeyFile_some]
      exact grants_probeFile (fun path => grants_loadKeyFile path) key
  unfold find
  refine Matches.bind (P := HitsWith (Grants resolver u)) ?_ ?_
  · refine matches_firstHit_cons (grants_probeEnv _) (matches_firstHit_cons (hsecret _)
      (matches_firstHit_cons (hkey _) (matches_firstHit_cons (grants_probeInline _) ?_))) []
    intro tried
    exact matches_pure (hitsWith_inr tried)
  · intro probed hhits
    cases probed with
    | inl credential => exact matches_pure (hhits credential rfl)
    | inr tried => exact (yields_fail u _).matches (yields_fail u _) nofun

/-! ## Keeping -/

/-- A cache keeps nothing of a kind that it did not keep before. -/
theorem subset_of_get (cache : CredentialCache) (now : Nat) (kind : CredentialKind) :
    (cache.get now kind).2.entries ⊆ cache.entries := by
  unfold CredentialCache.get
  cases cache.entries.lookup kind with
  | none => exact List.Subset.refl _
  | some entry =>
    dsimp only
    split
    · exact List.Subset.refl _
    · exact List.filter_sublist.subset

/-- What a cache gives it keeps. -/
theorem mem_of_get {cache : CredentialCache} {now : Nat} {credential : Credential}
    (h : (cache.get now kind).1 = some credential) : ∃ stored, (kind, ⟨credential, stored⟩) ∈ cache.entries := by
  unfold CredentialCache.get at h
  cases hentry : cache.entries.lookup kind with
  | none =>
    rw [hentry] at h
    cases h
  | some entry =>
    rw [hentry] at h
    dsimp only at h
    split at h
    · obtain rfl := Option.some.inj h
      obtain ⟨before, behind, hentries, -⟩ := List.lookup_eq_some_iff.mp hentry
      rw [hentries]
      exact ⟨entry.stored, List.mem_append_right _ List.mem_cons_self⟩
    · cases h

/-- What a cache keeps after it is given a credential is that credential or what it kept before. -/
theorem mem_of_mem_put {cache : CredentialCache} {now : Nat} {credential : Credential} {entry : CredentialKind × CacheEntry}
    (h : entry ∈ (cache.put now credential).entries) : entry ∈ cache.entries ∨ entry.2.credential = credential := by
  unfold CredentialCache.put at h
  split at h
  · exact Or.inl h
  · rcases List.mem_cons.mp h with rfl | h
    · exact Or.inr rfl
    · exact Or.inl (List.filter_sublist.subset h)

/-- What finding a credential through a cache comes to. -/
theorem findCached_run (resolver : Resolver) (cache : CredentialCache) (kind : CredentialKind) (u : World) :
    (resolver.findCached cache kind : StateM World (Except Failure Credential × CredentialCache)) u =
      match cache.get u.ticks kind with
      | (some credential, cache) => ((.ok credential, cache), u)
      | (none, cache) =>
        match outcome (resolver.find kind) u with
        | (.ok credential, after) => ((.ok credential, cache.put after.ticks credential), after)
        | (.error failure, after) => ((.error failure, cache), after) := by
  unfold findCached
  rw [operation_bind (rfl : (Host.ticks : StateM World Nat) u = (u.ticks, u))]
  rcases cache.get u.ticks kind with ⟨_ | credential, cache'⟩
  · dsimp only
    rcases hfind : outcome (resolver.find kind) u with ⟨failure | credential, found⟩
    · exact operation_bind hfind
    · exact operation_bind hfind
  · rfl

/-- A credential that is found through a cache was kept or is granted, and what is kept afterwards was kept or is granted. -/
theorem findCached_cases {cache kept : CredentialCache} {result : Except Failure Credential} {after : World}
    (h : (resolver.findCached cache kind : StateM World (Except Failure Credential × CredentialCache)) u = ((result, kept), after)) :
    (∀ credential, result = .ok credential →
      (∃ stored, (kind, ⟨credential, stored⟩) ∈ cache.entries) ∨ resolver.Grants u credential) ∧
    ∀ entry ∈ kept.entries, entry ∈ cache.entries ∨ resolver.Grants u entry.2.credential := by
  have hsubset := subset_of_get cache u.ticks kind
  rw [findCached_run] at h
  rcases hget : cache.get u.ticks kind with ⟨_ | credential, cache'⟩
  · rw [hget] at h hsubset
    dsimp only at h hsubset
    rcases hfind : outcome (resolver.find kind) u with ⟨failure | credential, found⟩
    · rw [hfind] at h
      obtain ⟨hresult, rfl⟩ := Prod.mk.inj h
      obtain ⟨rfl, rfl⟩ := Prod.mk.inj hresult
      exact ⟨nofun, fun entry hentry => Or.inl (hsubset hentry)⟩
    · rw [hfind] at h
      obtain ⟨hresult, rfl⟩ := Prod.mk.inj h
      obtain ⟨rfl, rfl⟩ := Prod.mk.inj hresult
      have hgrants : resolver.Grants u credential := (grants_find resolver kind u).of_outcome (by rw [hfind])
      refine ⟨?_, ?_⟩
      · intro other hother
        exact Or.inr (Except.ok.inj hother ▸ hgrants)
      · intro entry hentry
        rcases mem_of_mem_put hentry with hentry | hentry
        · exact Or.inl (hsubset hentry)
        · exact Or.inr (hentry ▸ hgrants)
  · have hkept : (cache.get u.ticks kind).1 = some credential := by rw [hget]
    rw [hget] at h hsubset
    obtain ⟨hresult, rfl⟩ := Prod.mk.inj h
    obtain ⟨rfl, rfl⟩ := Prod.mk.inj hresult
    refine ⟨?_, fun entry hentry => Or.inl (hsubset hentry)⟩
    intro other hother
    obtain rfl := Except.ok.inj hother
    exact Or.inl (mem_of_get hkept)

end Resolver

end SealedConfig
