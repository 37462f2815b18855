import SealedConfig.Proofs.Credential.Report

/-!
# Reports that agree with looking

What a report says is present is told from all the probes at once, without an order among them and without loading anything; what it
says is loadable comes from going through them one after the other. The two agree: material is present exactly when some probe hits, so
that a report of what is present and not loadable is one of a failure to read or to open it.
-/

namespace SealedConfig

open Run

/-- A failure to read or to open material of a kind. -/
inductive Failure.IsOfLoading (kind : CredentialKind) : Failure → Prop
  | unreadable (path : String) (fault : FileFault) : IsOfLoading kind (.credential (.unreadable kind.display path fault))
  | undecipherable (place : String) (fault : Credential.OpenFault) :
    IsOfLoading kind (.credential (.undecipherable kind.display place fault))

theorem Failure.IsOfLoading.ne_notFound {kind : CredentialKind} {failure : Failure} (h : failure.IsOfLoading kind)
    (tried : List String) : failure ≠ .credential (.notFound kind tried) := by
  rintro rfl
  cases h

/-- A report on a kind agrees with what looking for the credential comes to. -/
structure Health.Agrees (report : Health) (kind : CredentialKind) (found : Except Failure Credential) : Prop where
  ofKind : report.kind = kind
  loadable : report.isLoadable = true ↔ ∃ credential, found = .ok credential
  ofCredential : ∀ credential, found = .ok credential → report.source = some credential.source ∧ report.failure = none
  ofFailure : ∀ failure, found = .error failure → report.source = none ∧ report.failure = some failure.message
  absent : report.isPresent = false ↔ ∃ tried, found = .error (.credential (.notFound kind tried))
  present : report.isLoadable = true → report.isPresent = true
  configured : report.isPresent = true → report.isConfigured = true
  broken : report.isPresent = true → report.isLoadable = false →
    ∃ failure, found = .error failure ∧ report.failure = some failure.message ∧ failure.IsOfLoading kind

namespace Resolver

variable {resolver : Resolver} {kind : CredentialKind} {u : World} {hit : Hit}

/-! ## Presence -/

/-- Whether a path leads to a regular file in a world. -/
def isRegular (u : World) (path : String) : Bool := (u.stat? path).any FileInfo.isFile

theorem isSome_environmentHit? :
    (resolver.environmentHit? kind u).isSome = ((resolver.probes kind).env.bind (resolver.lookup.setting? u)).isSome := by
  unfold environmentHit?
  cases (resolver.probes kind).env with
  | none => rfl
  | some name => exact Option.isSome_map

theorem isSome_inlineHit? :
    (resolver.inlineHit? kind u).isSome = ((resolver.probes kind).inlineKey.bind (resolver.lookup.held? u)).isSome := by
  unfold inlineHit?
  cases (resolver.probes kind).inlineKey with
  | none => rfl
  | some key => exact Option.isSome_map

/-- A probe of a file hits exactly when a path is configured that leads to a regular file. -/
theorem isSome_fileHit? (hitAt : String → Hit) (key? : Option String) :
    (key?.bind fun key => (resolver.namedFile? u key).map hitAt).isSome =
      (key?.bind (resolver.lookup.held? u)).toList.any (isRegular u) := by
  cases key? with
  | none => rfl
  | some key =>
    rw [Option.bind_some, Option.bind_some, Option.isSome_map, namedFile?]
    cases resolver.lookup.held? u key with
    | none => rfl
    | some path =>
      rw [Option.toList_some, List.any_cons, List.any_nil, Bool.or_false, Option.filter_some, isRegular]
      cases (u.stat? path).any FileInfo.isFile <;> rfl

/-- Material is reported as present exactly when some probe hits. -/
theorem isPresent_healthIn (found : Except Failure Credential) :
    (resolver.healthIn kind u found).isPresent = (resolver.hits kind u).any Option.isSome := by
  have hfiles : (resolver.pathsIn kind u).any (isRegular u) =
      ((resolver.secretFileHit? kind u).isSome || (resolver.keyFileHit? kind u).isSome) := by
    rw [pathsIn, List.any_append, secretFileHit?, keyFileHit?,
      isSome_fileHit? (fun path => .secretFile path (u.files.readText u.here path)),
      isSome_fileHit? (fun path => .keyFile path (u.files.readText u.here path))]
  change (resolver.isSet kind u || (resolver.pathsIn kind u).any (isRegular u)) = _
  rw [hfiles, isSet, ← isSome_environmentHit?, ← isSome_inlineHit?]
  simp only [hits, List.any_cons, List.any_nil, Bool.or_false]
  ac_rfl

/-- What is present is configured: a regular file is one that a path leads to. -/
theorem isConfigured_of_isPresent {found : Except Failure Credential} (h : (resolver.healthIn kind u found).isPresent = true) :
    (resolver.healthIn kind u found).isConfigured = true := by
  unfold healthIn at h ⊢
  dsimp only at h ⊢
  rcases (Bool.or_eq_true _ _).mp h with hset | hfile
  · rw [hset, Bool.true_or]
  · obtain ⟨path, hpath, -⟩ := List.any_eq_true.mp hfile
    rw [List.isEmpty_eq_false_iff.mpr (List.ne_nil_of_mem hpath), Bool.not_false, Bool.or_true]

/-- Nothing is present exactly when no probe hits. -/
theorem isPresent_eq_false_iff {found : Except Failure Credential} :
    (resolver.healthIn kind u found).isPresent = false ↔ ∀ hit ∈ resolver.hits kind u, hit = none := by
  rw [isPresent_healthIn, List.any_eq_false]
  simp only [Option.not_isSome_iff_eq_none]

/-! ## Loading -/

/-- The only failures that a hit can lead to are those to read or to open what was hit. -/
theorem Hit.Decides.isOfLoading {failure : Failure} (h : hit.Decides kind (.error failure)) : failure.IsOfLoading kind := by
  cases hit with
  | environment name value => cases h
  | secretFile path content =>
    rcases h with ⟨_, h⟩ | ⟨fault, h⟩ | ⟨fault, h⟩
    · cases h
    · exact Except.error.inj h ▸ .unreadable path fault
    · exact Except.error.inj h ▸ .undecipherable path fault
  | keyFile path content =>
    rcases h with ⟨_, _, h, -⟩ | ⟨fault, h⟩ | ⟨fault, h⟩
    · cases h
    · exact Except.error.inj h ▸ .unreadable path fault
    · exact Except.error.inj h ▸ .undecipherable path fault
  | inline key value =>
    rcases h with ⟨_, h⟩ | ⟨fault, h⟩
    · cases h
    · exact Except.error.inj h ▸ .undecipherable key fault

/-- Looking for a credential fails with nothing found, when no probe hits, or else to read or to open what the first one hits. -/
theorem find_error_cases {failure : Failure} (h : (outcome (resolver.find kind) u).1 = .error failure) :
    ((∀ hit ∈ resolver.hits kind u, hit = none) ∧ failure = .credential (.notFound kind (resolver.tried kind u))) ∨
      (¬∀ hit ∈ resolver.hits kind u, hit = none) ∧ failure.IsOfLoading kind := by
  rw [outcome_find] at h
  rcases exists_isFirst (resolver.hits kind u) with hnone | ⟨hit, hhit⟩
  · have hmisses : (resolver.hits kind u).findSome? id = none := List.findSome?_eq_none_iff.mpr hnone
    rw [hmisses] at h
    exact Or.inl ⟨hnone, (Except.error.inj h).symm⟩
  · rw [hhit.findSome?] at h
    have hdecides := hit.decides_credential resolver kind
    dsimp only at h
    rw [h] at hdecides
    refine Or.inr ⟨?_, hdecides.isOfLoading⟩
    intro hnone
    obtain ⟨missed, behind, hhits⟩ := hhit
    cases hnone (some hit) (by simp [hhits])

/-- A credential is found only when some probe hits. -/
theorem hits_of_find_ok {credential : Credential} (h : (outcome (resolver.find kind) u).1 = .ok credential) :
    ¬∀ hit ∈ resolver.hits kind u, hit = none := by
  intro hnone
  have hmisses : (resolver.hits kind u).findSome? id = none := List.findSome?_eq_none_iff.mpr hnone
  rw [outcome_find, hmisses] at h
  cases h

/-! ## Reports and looking -/

/-- Reports agree with looking, whatever is looked up where. A kind is reported as loadable exactly when its credential is found, from
the source that it is found at and without a fault, and otherwise without a source and with the wording of the failure; as absent
exactly when looking reports that nothing was found; what is loadable is present and what is present is configured, so that what is
present and not loadable is reported with a failure to read or to open it. -/
theorem health_agrees (resolver : Resolver) (kind : CredentialKind) (u : World) :
    ((resolver.health kind : StateM World Health) u).1.Agrees kind (outcome (resolver.find kind) u).1 := by
  rw [health_run]
  dsimp only
  cases hfound : (outcome (resolver.find kind) u).1 with
  | ok credential =>
    have hpresent : (resolver.healthIn kind u (.ok credential)).isPresent = true := by
      rw [← Bool.not_eq_false, isPresent_eq_false_iff]
      exact hits_of_find_ok hfound
    exact {
      ofKind := rfl
      loadable := ⟨fun _ => ⟨credential, rfl⟩, fun _ => rfl⟩
      ofCredential := fun _ heq => Except.ok.inj heq ▸ ⟨rfl, rfl⟩
      ofFailure := nofun
      absent := ⟨fun habsent => absurd (hpresent.symm.trans habsent) (by decide), nofun⟩
      present := fun _ => hpresent
      configured := isConfigured_of_isPresent
      broken := nofun }
  | error failure =>
    refine {
      ofKind := rfl
      loadable := ⟨nofun, nofun⟩
      ofCredential := nofun
      ofFailure := fun _ heq => Except.error.inj heq ▸ ⟨rfl, rfl⟩
      absent := ?_
      present := nofun
      configured := isConfigured_of_isPresent
      broken := ?_ }
    · rw [isPresent_eq_false_iff]
      rcases find_error_cases hfound with ⟨hnone, rfl⟩ | ⟨hhits, hloading⟩
      · exact ⟨fun _ => ⟨_, rfl⟩, fun _ => hnone⟩
      · exact ⟨fun hnone => absurd hnone hhits, fun ⟨tried, heq⟩ => absurd (Except.error.inj heq) (hloading.ne_notFound tried)⟩
    · intro hpresent _
      rcases find_error_cases hfound with ⟨hnone, -⟩ | ⟨-, hloading⟩
      · rw [isPresent_eq_false_iff.mpr hnone] at hpresent
        cases hpresent
      · exact ⟨failure, rfl, rfl, hloading⟩

end Resolver

end SealedConfig
