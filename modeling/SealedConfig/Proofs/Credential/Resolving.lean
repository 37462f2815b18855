import SealedConfig.Credential.Resolver
import SealedConfig.Proofs.Document.Loading
import SealedConfig.Proofs.Section.Veiled

/-!
# Finding credentials in a world

What the probes of a resolver read of a world. A credential that is found comes from where the settings and the configuration say, and
it is the same over two documents that hold the same file names under the keys of the probes, and inline the same texts or envelopes
of them.
-/

namespace SealedConfig

open Run

/-- The value of an environment variable of a world that is not empty. -/
def World.setting? (w : World) (name : String) : Option String := (w.envValue? name).filter (· ≠ "")

/-- What a host's configuration over a document holds under a key: an environment variable, or else a text of the document. -/
def Document.held? (doc : Document) (w : World) (key : String) : Option String :=
  (w.setting? (Lookup.variableName key)).or ((doc.getText? (KeyPath.parse key)).filter (· ≠ ""))

namespace Lookup

/-- The value of an environment variable as a lookup sees it in a world, when it is not empty. -/
def setting? (lookup : Lookup) (u : World) (name : String) : Option String :=
  match lookup with
  | .fixed environment _ => (environment.lookup name).filter (· ≠ "")
  | .host _ => u.setting? name

/-- The value of a configuration key as a lookup sees it in a world, when it is not empty. -/
def held? (lookup : Lookup) (u : World) (key : String) : Option String :=
  match lookup with
  | .fixed _ configuration => (configuration.lookup key).filter (· ≠ "")
  | .host document =>
    (u.setting? (variableName key)).or ((document.bind fun doc => doc.getText? (KeyPath.parse key)).filter (· ≠ ""))

end Lookup

namespace Resolver

/-- The resolver of a host with a master key over a document. -/
def ofHost (provider : Provider) (settings : CredentialSettings) (doc : Document) : Resolver :=
  ⟨.host (some doc), some provider, settings⟩

/-- The settings name a source for a kind, and the configuration over a document the file there. -/
def Names (settings : CredentialSettings) (kind : CredentialKind) (doc : Document) (u : World) : CredentialSource → Prop
  | .environment name => (settings.probes kind).env = some name
  | .secretFile path => ∃ key, (settings.probes kind).secretFileKey = some key ∧ doc.held? u key = some path
  | .encryptedFile path => ∃ key, (settings.probes kind).pathKey = some key ∧ doc.held? u key = some path
  | .plainFile path => ∃ key, (settings.probes kind).pathKey = some key ∧ doc.held? u key = some path
  | .inline key => (settings.probes kind).inlineKey = some key

/-- No environment variable of a world gives the credential of a kind. -/
def LooksFurther (settings : CredentialSettings) (kind : CredentialKind) (u : World) : Prop :=
  ∀ name, (settings.probes kind).env = some name → u.setting? name = none

/-- A key of the configuration is one that names a file to look in. -/
def IsFileKey (settings : CredentialSettings) (kind : CredentialKind) (key : String) : Prop :=
  (settings.probes kind).secretFileKey = some key ∨ (settings.probes kind).pathKey = some key

/-- Over two documents the same is found in a world: the same file names, when they are looked for, and the same inline values or
envelopes of them. -/
structure Agree (provider : Provider) (settings : CredentialSettings) (kind : CredentialKind) (u : World)
    (edited doc : Document) : Prop where
  files : LooksFurther settings kind u → ∀ key, IsFileKey settings kind key → edited.held? u key = doc.held? u key
  inline : ∀ key, VeilsText (provider.protector Protector.configSecrets) (edited.held? u key) (doc.held? u key)

variable {u : World} {doc edited : Document} {provider : Provider} {settings : CredentialSettings} {kind : CredentialKind}

/-! ## What is read of a world -/

/-- Looking up a variable changes nothing in a world. -/
theorem env?_run (lookup : Lookup) (name : String) (w : World) :
    (lookup.env? name : StateM World (Option String)) w = (lookup.setting? w name, w) := by
  cases lookup with
  | fixed environment configuration => rfl
  | host document => rfl

/-- Looking up a key of the configuration changes nothing in a world. -/
theorem config?_run (lookup : Lookup) (key : String) (w : World) :
    (lookup.config? key : StateM World (Option String)) w = (lookup.held? w key, w) := by
  cases lookup with
  | fixed environment configuration => rfl
  | host document =>
    have hread : (Host.nonEmptyEnv? (Lookup.variableName key) : StateM World (Option String)) w =
        (w.setting? (Lookup.variableName key), w) := rfl
    rw [Lookup.config?, operation_bind hread, Lookup.held?]
    cases w.setting? (Lookup.variableName key) with
    | some value => rfl
    | none => rfl

theorem setting?_of_looksLike {w : World} (h : u.LooksLike w) (name : String) : w.setting? name = u.setting? name := by
  rw [World.setting?, World.envValue?, h.environment]
  rfl

/-- A variable is looked up in every world that looks like a world. -/
theorem yields_setting (lookup : Lookup) (name : String) : Yields u (step (lookup.env? name)) (.ok (lookup.setting? u name)) := by
  apply yields_of_reads
  intro w hw
  rw [outcome_step, env?_run]
  cases lookup with
  | fixed environment configuration => rfl
  | host document => rw [Lookup.setting?, setting?_of_looksLike hw, Lookup.setting?]

/-- A key of the configuration is looked up in every world that looks like a world. -/
theorem yields_held (lookup : Lookup) (key : String) : Yields u (step (lookup.config? key)) (.ok (lookup.held? u key)) := by
  apply yields_of_reads
  intro w hw
  rw [outcome_step, config?_run]
  cases lookup with
  | fixed environment configuration => rfl
  | host document => rw [Lookup.held?, setting?_of_looksLike hw, Lookup.held?]

/-- A key is looked up among the variables of a world and then in the document of a host. -/
theorem yields_heldHost (key : String) :
    Yields u (step ((ofHost provider settings doc).lookup.config? key)) (.ok (doc.held? u key)) :=
  yields_held _ key

theorem yields_isFile (path : String) : Yields u (Run.isFile path) (.ok ((u.stat? path).any FileInfo.isFile)) := by
  apply yields_of_reads
  intro w hw
  have hstat : outcome (Run.isFile path) w = (.ok ((w.stat? path).any FileInfo.isFile), w) := rfl
  rw [hstat, World.stat?, World.stat?, hw.files, hw.here]

theorem yields_readFile (path : String) :
    Yields u (readFile kind path)
      ((u.files.readText u.here path).mapError fun fault => .credential (.unreadable kind.display path fault)) := by
  apply yields_of_reads
  intro w hw
  rw [readFile, outcome_attempt, readText_eq, hw.files, hw.here]

/-! ## Loading -/

theorem steady_opened (u : World) (kind : CredentialKind) (place : String) (result : Except Credential.OpenFault String) :
    Matches u (fun _ => True) (opened kind place result) (opened kind place result) :=
  (yields_settle u (fun source => .credential (.undecipherable kind.display place source)) result).steady

/-- What is loaded from a secret file does not depend on the document. -/
theorem matches_loadSecretFile (path : String) :
    Matches u (fun credential => credential.source = .secretFile path)
      ((ofHost provider settings edited).loadSecretFile kind path) ((ofHost provider settings doc).loadSecretFile kind path) := by
  change Matches u _ ((ofHost provider settings doc).loadSecretFile kind path) _
  rw [loadSecretFile]
  refine Matches.of_tells (tells_inform _ _) ?_
  refine (yields_readFile path).steady.bind ?_
  intro content _
  dsimp only
  split
  · exact (steady_opened u kind path _).bind fun value _ => matches_pure rfl
  · exact matches_pure rfl

/-- What is loaded from a key file does not depend on the document. -/
theorem matches_loadKeyFile (path : String) :
    Matches u (fun credential => credential.source = .encryptedFile path ∨ credential.source = .plainFile path)
      ((ofHost provider settings edited).loadKeyFile kind path) ((ofHost provider settings doc).loadKeyFile kind path) := by
  change Matches u _ ((ofHost provider settings doc).loadKeyFile kind path) _
  rw [loadKeyFile]
  refine (yields_readFile path).steady.bind ?_
  intro content _
  dsimp only
  split
  · refine Matches.of_tells (tells_inform _ _) ?_
    exact (steady_opened u kind path _).bind fun value _ => matches_pure (Or.inl rfl)
  · refine Matches.of_tells (tells_warn _ _) ?_
    exact matches_pure (Or.inr rfl)

/-- A credential in a value of the configuration is the same when an envelope of the value stands in its place. -/
theorem matches_loadInline {value text : String} (key : String)
    (h : VeilsText (provider.protector Protector.configSecrets) (some value) (some text)) :
    Matches u (fun credential => credential.source = .inline key)
      ((ofHost provider settings edited).loadInline kind key value) ((ofHost provider settings doc).loadInline kind key text) := by
  rcases h with hsame | ⟨value', plain, hvalue, hplain, hhides⟩
  · obtain rfl := Option.some.inj hsame
    change Matches u _ ((ofHost provider settings doc).loadInline kind key value) _
    rw [loadInline]
    split
    · exact (steady_opened u kind key _).bind fun held _ => matches_pure rfl
    · refine Matches.of_tells (tells_warn _ _) ?_
      exact matches_pure rfl
  · obtain rfl := Option.some.inj hvalue
    obtain rfl := Option.some.inj hplain
    have hopen : (ofHost provider settings edited).openInline value = .ok text := by
      rw [openInline, protector, ofHost]
      dsimp only
      rw [hhides.opens]
      rfl
    have hveiled : Yields u ((ofHost provider settings edited).loadInline kind key value) (.ok ⟨kind, .inline key, text⟩) := by
      rw [loadInline, if_pos hhides.marked, hopen]
      exact (yields_settle u _ _).bind_ok (yields_pure u _)
    have hplain : Yields u ((ofHost provider settings doc).loadInline kind key text) (.ok ⟨kind, .inline key, text⟩) := by
      rw [loadInline, hhides.plain]
      exact ((tells_warn _ _).yields u).bind_ok (yields_pure u _)
    exact hveiled.matches hplain fun credential hok => Except.ok.inj hok ▸ rfl

/-! ## Probing -/

/-- A probe that hits gives a credential with a property. -/
def HitsWith (Q : Credential → Prop) (probed : Probed) : Prop := ∀ credential, probed = .inl credential → Q credential

theorem hitsWith_inl {Q : Credential → Prop} {credential : Credential} (h : Q credential) : HitsWith Q (.inl credential) :=
  fun _ heq => Sum.inl.inj heq ▸ h

theorem hitsWith_inr {Q : Credential → Prop} (tried : List String) : HitsWith Q (.inr tried) := nofun

/-- What a probe of the environment finds does not depend on the document, and when it finds nothing the variable is not set. -/
theorem matches_probeEnv :
    Matches u
      (fun probed => HitsWith (fun credential => Names settings kind doc u credential.source) probed ∧
        ((∃ tried, probed = .inr tried) → LooksFurther settings kind u))
      ((ofHost provider settings edited).probeEnv kind (settings.probes kind).env)
      ((ofHost provider settings doc).probeEnv kind (settings.probes kind).env) := by
  cases henv : (settings.probes kind).env with
  | none =>
    refine matches_pure ⟨hitsWith_inr [], ?_⟩
    intro _ name hname
    rw [henv] at hname
    cases hname
  | some name =>
    simp only [probeEnv]
    have hlook (document : Document) :
        Yields u (step ((ofHost provider settings document).lookup.env? name)) (.ok (u.setting? name)) := yields_setting _ name
    refine Matches.of_yields (hlook edited) (hlook doc) ?_
    cases hsetting : u.setting? name with
    | some value =>
      refine Matches.of_tells (tells_inform _ _) ?_
      exact matches_pure ⟨hitsWith_inl henv, nofun⟩
    | none =>
      refine matches_pure ⟨hitsWith_inr _, ?_⟩
      intro _ other hother
      obtain rfl : name = other := Option.some.inj (henv.symm.trans hother)
      exact hsetting

/-- Looks in the file that a configuration key names: what is loaded from it, or what was tried with the name or without one. -/
def probeFile (resolver : Resolver) (kind : CredentialKind) (load : String → Run (StateM World) Credential) (missing : String)
    (tried : Option String → String) (key : String) : Run (StateM World) Probed := do
  match ← step (resolver.lookup.config? key) with
  | some path =>
    if ← Run.isFile path then return .inl (← load path)
    else
      debug missing [Log.plain "kind" kind.display, Log.plain "path" path]
      return .inr [tried (some path)]
  | none => return .inr [tried none]

theorem probeSecretFile_some (resolver : Resolver) (kind : CredentialKind) (key : String) :
    resolver.probeSecretFile kind (some key) =
      resolver.probeFile kind (resolver.loadSecretFile kind) "secret file missing" (fun _ => s!"secret file {key}") key := rfl

theorem probeKeyFile_some (resolver : Resolver) (kind : CredentialKind) (key : String) :
    resolver.probeKeyFile kind (some key) =
      resolver.probeFile kind (resolver.loadKeyFile kind) "key file missing" (·.getD s!"{key} (unset)") key := rfl

/-- A probe of a file finds the same over documents that hold the same file name, when the same is loaded from the file. -/
theorem matches_probeFile {load other : String → Run (StateM World) Credential} {Q : Credential → Prop} {missing : String}
    {tried : Option String → String} {key : String} (h : edited.held? u key = doc.held? u key)
    (hload : ∀ path, doc.held? u key = some path → Matches u Q (load path) (other path)) :
    Matches u (HitsWith Q) ((ofHost provider settings edited).probeFile kind load missing tried key)
      ((ofHost provider settings doc).probeFile kind other missing tried key) := by
  unfold probeFile
  have hedited : Yields u (step ((ofHost provider settings edited).lookup.config? key)) (.ok (doc.held? u key)) :=
    h ▸ yields_heldHost key
  refine Matches.of_yields hedited (yields_heldHost key) ?_
  cases hheld : doc.held? u key with
  | none => exact matches_pure (hitsWith_inr _)
  | some path =>
    refine Matches.of_yields (yields_isFile path) (yields_isFile path) ?_
    split
    · refine (hload path hheld).bind ?_
      intro credential hQ
      exact matches_pure (hitsWith_inl hQ)
    · refine Matches.of_tells (tells_debug _ _) ?_
      exact matches_pure (hitsWith_inr _)

/-- A probe of a secret file finds the same over documents that hold the same file name. -/
theorem matches_probeSecretFile
    (h : ∀ key, (settings.probes kind).secretFileKey = some key → edited.held? u key = doc.held? u key) :
    Matches u (HitsWith fun credential => Names settings kind doc u credential.source)
      ((ofHost provider settings edited).probeSecretFile kind (settings.probes kind).secretFileKey)
      ((ofHost provider settings doc).probeSecretFile kind (settings.probes kind).secretFileKey) := by
  cases hkey : (settings.probes kind).secretFileKey with
  | none => exact matches_pure (hitsWith_inr [])
  | some key =>
    rw [probeSecretFile_some, probeSecretFile_some]
    refine matches_probeFile (h key hkey) ?_
    intro path hheld
    refine (matches_loadSecretFile path).mono ?_
    intro credential hsource
    rw [hsource]
    exact ⟨key, hkey, hheld⟩

/-- A probe of a key file finds the same over documents that hold the same file name. -/
theorem matches_probeKeyFile
    (h : ∀ key, (settings.probes kind).pathKey = some key → edited.held? u key = doc.held? u key) :
    Matches u (HitsWith fun credential => Names settings kind doc u credential.source)
      ((ofHost provider settings edited).probeKeyFile kind (settings.probes kind).pathKey)
      ((ofHost provider settings doc).probeKeyFile kind (settings.probes kind).pathKey) := by
  cases hkey : (settings.probes kind).pathKey with
  | none => exact matches_pure (hitsWith_inr [])
  | some key =>
    rw [probeKeyFile_some, probeKeyFile_some]
    refine matches_probeFile (h key hkey) ?_
    intro path hheld
    refine (matches_loadKeyFile path).mono ?_
    intro credential hsource
    rcases hsource with hsource | hsource <;> rw [hsource] <;> exact ⟨key, hkey, hheld⟩

/-- A probe of the configuration finds the same over documents of which one has envelopes in the place of texts of the other. -/
theorem matches_probeInline
    (h : ∀ key, VeilsText (provider.protector Protector.configSecrets) (edited.held? u key) (doc.held? u key)) :
    Matches u (HitsWith fun credential => Names settings kind doc u credential.source)
      ((ofHost provider settings edited).probeInline kind (settings.probes kind).inlineKey)
      ((ofHost provider settings doc).probeInline kind (settings.probes kind).inlineKey) := by
  cases hkey : (settings.probes kind).inlineKey with
  | none => exact matches_pure (hitsWith_inr [])
  | some key =>
    simp only [probeInline]
    refine Matches.of_yields (yields_heldHost key) (yields_heldHost key) ?_
    rcases (h key).cases with ⟨hvalue, htext⟩ | ⟨value, text, hvalue, htext, hveils⟩
    · rw [hvalue, htext]
      exact matches_pure (hitsWith_inr _)
    · rw [hvalue, htext]
      refine (matches_loadInline key hveils).bind fun credential hsource => matches_pure (hitsWith_inl ?_)
      rw [hsource]
      exact hkey

/-- Probes that match find the same one after the other, when those behind them do. -/
theorem matches_firstHit_cons {Q : Credential → Prop} {probe other : Run (StateM World) Probed}
    {rest others : List (Run (StateM World) Probed)} (hprobe : Matches u (HitsWith Q) probe other)
    (hrest : ∀ tried, Matches u (HitsWith Q) (firstHit tried rest) (firstHit tried others)) (tried : List String) :
    Matches u (HitsWith Q) (firstHit tried (probe :: rest)) (firstHit tried (other :: others)) := by
  rw [firstHit, firstHit]
  refine hprobe.bind ?_
  intro probed hhits
  cases probed with
  | inl credential => exact matches_pure hhits
  | inr more => exact hrest (tried ++ more)

/-- Over documents that agree the same credential is found, where the settings and the configuration say. -/
theorem matches_find (h : Agree provider settings kind u edited doc) :
    Matches u (fun credential => Names settings kind doc u credential.source)
      ((ofHost provider settings edited).find kind) ((ofHost provider settings doc).find kind) := by
  have hprobes : Matches u (HitsWith fun credential => Names settings kind doc u credential.source)
      (firstHit [] [(ofHost provider settings edited).probeEnv kind (settings.probes kind).env,
        (ofHost provider settings edited).probeSecretFile kind (settings.probes kind).secretFileKey,
        (ofHost provider settings edited).probeKeyFile kind (settings.probes kind).pathKey,
        (ofHost provider settings edited).probeInline kind (settings.probes kind).inlineKey])
      (firstHit [] [(ofHost provider settings doc).probeEnv kind (settings.probes kind).env,
        (ofHost provider settings doc).probeSecretFile kind (settings.probes kind).secretFileKey,
        (ofHost provider settings doc).probeKeyFile kind (settings.probes kind).pathKey,
        (ofHost provider settings doc).probeInline kind (settings.probes kind).inlineKey]) := by
    rw [firstHit, firstHit]
    refine matches_probeEnv.bind ?_
    rintro probed ⟨hhits, hfurther⟩
    cases probed with
    | inl credential => exact matches_pure hhits
    | inr tried =>
      -- file names count only behind the environment
      have hfiles := h.files (hfurther ⟨tried, rfl⟩)
      refine matches_firstHit_cons (matches_probeSecretFile ?_)
        (matches_firstHit_cons (matches_probeKeyFile ?_) (matches_firstHit_cons (matches_probeInline h.inline) ?_)) tried
      · intro key hkey
        exact hfiles key (Or.inl hkey)
      · intro key hkey
        exact hfiles key (Or.inr hkey)
      · intro tried
        exact matches_pure (hitsWith_inr tried)
  unfold find
  refine hprobes.bind ?_
  intro probed hhits
  cases probed with
  | inl credential => exact matches_pure (hhits credential rfl)
  | inr tried => exact (yields_fail u _).matches (yields_fail u _) nofun

/-- A document agrees with itself. -/
theorem Agree.refl (provider : Provider) (settings : CredentialSettings) (kind : CredentialKind) (u : World) (doc : Document) :
    Agree provider settings kind u doc doc := ⟨fun _ _ _ => rfl, fun _ => .refl _⟩

end Resolver

end SealedConfig
