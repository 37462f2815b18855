import SealedConfig.KeyStore.Store
import SealedConfig.Proofs.Document.Loading
import SealedConfig.Proofs.Host.Writing
import SealedConfig.Proofs.KeyStore.Content

/-!
# What a key store holds

A key store holds the key that loading comes to. Which key that is depends on the key file, on the identity file when keys are
wrapped for one, and on the environment; as long as these stay, so does the key.
-/

namespace SealedConfig

open Run FileTree

/-- A text that opens no object and stands under a path still stands there in another world. -/
def World.KeepsText (w other : World) (path : String) : Prop :=
  ∀ text mode, w.files.stat w.here path = .ok (.file (Bytes.ofText text) mode) → OpensNoObject text →
    other.files.stat w.here path = .ok (.file (Bytes.ofText text) mode)

theorem World.Enlarged.keepsText {w after : World} (h : w.Enlarged after) (path : String) : w.KeepsText after path :=
  fun _ _ hs _ => h.stat_eq_ok hs

/-! ## Steps that read -/

theorem reads_pathExists (path : String) : Reads (pathExists path) := by
  refine reads_step fun u w hw => ?_
  have hrun (w : World) : (Host.pathExists path : StateM World Bool) w = ((w.stat? path).isSome, w) := rfl
  rw [hrun, hrun, World.stat?, World.stat?, hw.files, hw.here]

theorem reads_readText (failure : FileFault → Failure) (path : String) : Reads (attempt failure (Host.readText path)) := by
  refine reads_attempt failure fun u w hw => ?_
  rw [readText_eq, readText_eq, hw.files, hw.here]

theorem reads_nonEmptyEnv (name : String) : Reads (step (Host.nonEmptyEnv? name)) := by
  refine reads_step fun u w hw => ?_
  have hrun (w : World) : (Host.nonEmptyEnv? name : StateM World (Option String)) w = ((w.envValue? name).filter (· ≠ ""), w) := rfl
  rw [hrun, hrun, hw.sharesSite.envValue?]

theorem outcome_readText_ok {failure : FileFault → Failure} {path text : String} {w : World} :
    (outcome (attempt failure (Host.readText path)) w).1 = .ok text ↔
      ∃ mode, w.files.stat w.here path = .ok (.file (Bytes.ofText text) mode) := by
  rw [outcome_attempt, readText_eq, Outcome.mapError_eq_ok_iff, readText_eq_ok_iff]

/-! ## The store that settings choose -/

/-- The directory of the keys, where there is one. -/
def KeySettings.dir? (keys : KeySettings) (w : World) : Option String := keys.dir.or (w.home?.map (FilePath.join · KeySettings.homeDir))

/-- The path of the key file, where there is a directory for it. -/
def KeySettings.keyPath? (keys : KeySettings) (w : World) : Option String := (keys.dir? w).map (FilePath.join · KeyStore.fileName)

/-- How keys are wrapped, when the settings say how. -/
def KeySettings.wrap? (keys : KeySettings) : Option KeyWrap :=
  match keys.protection with
  | .none => some .bare
  | .passphrase => some (.passphrase keys.passphraseVariable)
  | .identity => keys.identity.map .identity
  | .keychain => none

theorem World.SharesSite.dir? {w other : World} (h : w.SharesSite other) (keys : KeySettings) : keys.dir? other = keys.dir? w := by
  rw [KeySettings.dir?, KeySettings.dir?, h.home?]

theorem World.SharesSite.keyPath? {w other : World} (h : w.SharesSite other) (keys : KeySettings) :
    keys.keyPath? other = keys.keyPath? w := by
  rw [KeySettings.keyPath?, KeySettings.keyPath?, h.dir?]

/-- The directory of the keys is found where there is one, and otherwise asked for in vain. -/
theorem outcome_keyDir (keys : KeySettings) (w : World) :
    outcome keys.keyDir w = (match keys.dir? w with | some dir => .ok dir | none => .error (.store .noHome), w) := by
  unfold KeySettings.keyDir KeySettings.dir?
  cases keys.dir with
  | some dir => rfl
  | none =>
    have hhome : outcome (step Host.home?) w = (.ok w.home?, w) := rfl
    dsimp only
    rw [outcome_bind_ok hhome]
    cases w.home? with
    | some home => rfl
    | none => rfl

theorem reads_keyDir (keys : KeySettings) : Reads keys.keyDir := by
  intro u w hw
  rw [outcome_keyDir, outcome_keyDir, hw.sharesSite.dir?]
  exact ⟨rfl, .refl w⟩

/-- The store that wraps keys in a way, in the directory of the keys. -/
def storeFor (cipher : FileCipher) (keys : KeySettings) (wrap : KeyWrap) : Run (StateM World) KeyStore := do
  let dir ← keys.keyDir
  let store := KeyStore.mk dir wrap cipher
  debug "selected key store" [Log.inQuotes "store" store.name, Log.plain "location" store.location]
  return store

/-- The settings choose the store that wraps keys as they say, or fail because they do not say how. -/
theorem ofSettings_cases (cipher : FileCipher) (keys : KeySettings) :
    (∃ wrap, keys.wrap? = some wrap ∧ KeyStore.ofSettings cipher keys = storeFor cipher keys wrap) ∨
      keys.wrap? = none ∧ ∃ failure, (KeyStore.ofSettings cipher keys : Run (StateM World) KeyStore) = fail failure := by
  unfold KeyStore.ofSettings KeySettings.wrap?
  cases keys.protection with
  | none => exact Or.inl ⟨_, rfl, by simp [storeFor]⟩
  | passphrase => exact Or.inl ⟨_, rfl, by simp [storeFor]⟩
  | identity =>
    cases keys.identity with
    | some path => exact Or.inl ⟨_, rfl, by simp [storeFor]⟩
    | none => exact Or.inr ⟨rfl, _, rfl⟩
  | keychain => exact Or.inr ⟨rfl, _, rfl⟩

/-- The settings choose a directory, when there is one, and how to wrap keys, when they say how. -/
theorem outcome_ofSettings (cipher : FileCipher) (keys : KeySettings) (w : World) :
    ∃ failure, (outcome (KeyStore.ofSettings cipher keys) w).1 =
      match keys.dir? w, keys.wrap? with
      | some dir, some wrap => .ok ⟨dir, wrap, cipher⟩
      | _, _ => .error failure := by
  rcases ofSettings_cases cipher keys with ⟨wrap, hwrap, heq⟩ | ⟨hwrap, failure, heq⟩
  · refine ⟨.store .noHome, ?_⟩
    rw [heq, hwrap, storeFor, outcome_bind, outcome_keyDir]
    cases keys.dir? w with
    | none => rfl
    | some dir => rfl
  · refine ⟨failure, ?_⟩
    rw [heq, hwrap]
    cases keys.dir? w <;> rfl

theorem reads_ofSettings (cipher : FileCipher) (keys : KeySettings) : Reads (KeyStore.ofSettings cipher keys) := by
  rcases ofSettings_cases cipher keys with ⟨wrap, -, heq⟩ | ⟨-, failure, heq⟩
  · rw [heq]
    exact (reads_keyDir keys).bind fun dir => (tells_debug _ _).reads.bind fun _ => reads_pure _
  · rw [heq]
    exact reads_fail failure

/-- The store is chosen where the settings say how to wrap keys and there is a directory for them. -/
theorem ofSettings_eq_ok_iff {cipher : FileCipher} {keys : KeySettings} {w : World} {store : KeyStore} :
    (outcome (KeyStore.ofSettings cipher keys) w).1 = .ok store ↔
      ∃ dir wrap, keys.dir? w = some dir ∧ keys.wrap? = some wrap ∧ store = ⟨dir, wrap, cipher⟩ := by
  obtain ⟨failure, heq⟩ := outcome_ofSettings cipher keys w
  rw [heq]
  cases keys.dir? w with
  | none => simp
  | some dir =>
    cases keys.wrap? with
    | none => simp
    | some wrap => simp [eq_comm]

namespace KeyStore

/-! ## What opens a key file -/

/-- The text of a key file opens to a key with what it was encrypted for, or without when it is bare. -/
def Opens (cipher : FileCipher) (text : String) (key : MasterKey) : Option FileKey → Prop
  | none => MasterKey.ofBase64 text = .ok key
  | some fileKey => ∃ bytes, cipher.decrypt fileKey text = .ok bytes ∧ MasterKey.ofTextBytes bytes = .ok key

theorem reads_readPassphrase (name : String) : Reads (KeyWrap.readPassphrase name) := by
  unfold KeyWrap.readPassphrase
  refine (reads_nonEmptyEnv name).bind fun found => ?_
  cases found with
  | some text => exact reads_pure text
  | none => exact reads_fail _

theorem reads_readIdentity (path : String) : Reads (KeyWrap.readIdentity path) := by
  unfold KeyWrap.readIdentity
  refine (reads_readText _ path).bind fun text => ?_
  split
  · exact reads_pure _
  · exact reads_fail _

theorem reads_fileKey (wrap : KeyWrap) : Reads wrap.fileKey := by
  cases wrap with
  | bare => exact reads_pure _
  | passphrase name => exact (reads_readPassphrase name).bind fun text => reads_pure _
  | identity path => exact (reads_readIdentity path).bind fun identity => reads_pure _

/-- The passphrase is what the environment has under the name, if it is not empty. -/
theorem readPassphrase_eq_ok_iff {name text : String} {w : World} :
    (outcome (KeyWrap.readPassphrase name) w).1 = .ok text ↔ (w.envValue? name).filter (· ≠ "") = some text := by
  have henv : outcome (step (Host.nonEmptyEnv? name)) w = (.ok ((w.envValue? name).filter (· ≠ "")), w) := rfl
  unfold KeyWrap.readPassphrase
  rw [outcome_bind, henv]
  cases (w.envValue? name).filter (· ≠ "") with
  | none => exact iff_of_false nofun nofun
  | some found =>
    change Except.ok found = .ok text ↔ _
    rw [Except.ok.injEq, Option.some.injEq]

/-- The identity is the one in the text of the file. -/
theorem readIdentity_eq_ok_iff {path : String} {identity : Age.Identity} {w : World} :
    (outcome (KeyWrap.readIdentity path) w).1 = .ok identity ↔
      ∃ text mode, w.files.stat w.here path = .ok (.file (Bytes.ofText text) mode) ∧ Age.Identity.ofText? text = some identity := by
  unfold KeyWrap.readIdentity
  constructor
  · intro h
    obtain ⟨text, htext, hparsed⟩ := exists_of_bind_ok h
    obtain ⟨mode, hstat⟩ := outcome_readText_ok.mp htext
    split at hparsed
    · rename_i found hfound
      obtain rfl : found = identity := Except.ok.inj hparsed
      exact ⟨text, mode, hstat, hfound⟩
    · cases hparsed
  · rintro ⟨text, mode, hstat, hfound⟩
    have htext : (outcome (attempt (fun fault => .store (.unreadable fault)) (Host.readText path)) w).1 = .ok text :=
      outcome_readText_ok.mpr ⟨mode, hstat⟩
    rw [outcome_bind_ok (Prod.ext htext rfl), hfound]
    rfl

/-- What keys are wrapped for: nothing, the passphrase of the environment or the identity in a file. -/
theorem fileKey_eq_ok_iff {wrap : KeyWrap} {w : World} {fileKey : Option FileKey} :
    (outcome wrap.fileKey w).1 = .ok fileKey ↔
      match wrap with
      | .bare => fileKey = none
      | .passphrase name => ∃ text, (w.envValue? name).filter (· ≠ "") = some text ∧ fileKey = some (.passphrase text)
      | .identity path => ∃ text mode identity, w.files.stat w.here path = .ok (.file (Bytes.ofText text) mode) ∧
          Age.Identity.ofText? text = some identity ∧ fileKey = some (.identity identity) := by
  cases wrap with
  | bare =>
    unfold KeyWrap.fileKey
    rw [outcome_pure]
    exact ⟨fun h => (Except.ok.inj h).symm, fun h => h ▸ rfl⟩
  | passphrase name =>
    constructor
    · intro h
      obtain ⟨text, htext, hdone⟩ := exists_of_bind_ok h
      exact ⟨text, readPassphrase_eq_ok_iff.mp htext, (Except.ok.inj hdone).symm⟩
    · rintro ⟨text, htext, rfl⟩
      exact congrArg Prod.fst (outcome_bind_ok (Prod.ext (readPassphrase_eq_ok_iff.mpr htext) rfl))
  | identity path =>
    constructor
    · intro h
      obtain ⟨identity, hidentity, hdone⟩ := exists_of_bind_ok h
      obtain ⟨text, mode, hstat, hfound⟩ := readIdentity_eq_ok_iff.mp hidentity
      exact ⟨text, mode, identity, hstat, hfound, (Except.ok.inj hdone).symm⟩
    · rintro ⟨text, mode, identity, hstat, hfound, rfl⟩
      exact congrArg Prod.fst (outcome_bind_ok (Prod.ext (readIdentity_eq_ok_iff.mpr ⟨text, mode, hstat, hfound⟩) rfl))

/-- A key file opens when it is wrapped as the store wraps. -/
theorem unwrap_eq_ok_iff {store : KeyStore} {text : String} {w : World} {key : MasterKey} :
    (outcome (store.unwrap text) w).1 = .ok key ↔
      detect store.cipher text = .ok store.wrap.protection ∧
        ∃ fileKey, (outcome store.wrap.fileKey w).1 = .ok fileKey ∧ Opens store.cipher text key fileKey := by
  unfold unwrap
  rw [outcome_bind, outcome_settle]
  cases hfound : detect store.cipher text with
  | error fault => exact iff_of_false nofun fun ⟨h, _⟩ => nomatch h
  | ok found =>
    have hmap : (Except.ok found : Except FileCipherFault Protection).mapError Failure.fileCipher = .ok found := rfl
    rw [hmap]
    dsimp only
    by_cases hwrap : found = store.wrap.protection
    · rw [if_neg (not_not_intro hwrap), hwrap]
      constructor
      · intro h
        obtain ⟨fileKey, hkey, hopen⟩ := exists_of_bind_ok h
        refine ⟨rfl, fileKey, hkey, ?_⟩
        cases fileKey with
        | none => exact Outcome.mapError_eq_ok_iff.mp hopen
        | some fileKey =>
          obtain ⟨bytes, hbytes, hkey⟩ := exists_of_bind_ok hopen
          exact ⟨bytes, Outcome.mapError_eq_ok_iff.mp hbytes, Outcome.mapError_eq_ok_iff.mp hkey⟩
      · rintro ⟨-, fileKey, hkey, hopen⟩
        rw [outcome_bind_ok (Prod.ext hkey rfl)]
        cases fileKey with
        | none => exact Outcome.mapError_eq_ok_iff.mpr hopen
        | some fileKey =>
          obtain ⟨bytes, hbytes, hkey⟩ := hopen
          dsimp only
          rw [outcome_bind, outcome_settle, hbytes]
          exact Outcome.mapError_eq_ok_iff.mpr hkey
    · rw [if_pos hwrap]
      exact iff_of_false nofun fun ⟨h, _⟩ => hwrap (Except.ok.inj h)

theorem reads_unwrap (store : KeyStore) (text : String) : Reads (store.unwrap text) := by
  unfold unwrap
  refine (reads_settle _ _).bind fun found => ?_
  split
  · exact reads_fail _
  · refine (reads_fileKey _).bind fun fileKey => ?_
    cases fileKey with
    | none => exact reads_settle _ _
    | some fileKey => exact (reads_settle _ _).bind fun bytes => reads_settle _ _

theorem reads_checkPermissions (store : KeyStore) : Reads store.checkPermissions := by
  unfold checkPermissions
  have hstat : Reads (step (Host.stat store.keyPath)) := by
    refine reads_step fun u w hw => ?_
    have hrun (w : World) : (Host.stat store.keyPath : StateM World (Option FileInfo)) w = (w.stat? store.keyPath, w) := rfl
    rw [hrun, hrun, World.stat?, World.stat?, hw.files, hw.here]
  refine hstat.bind fun found => ?_
  split
  · split
    · exact (tells_warn _ _).reads
    · exact reads_pure _
  · exact reads_pure _

/-- Looking at permissions does not fail. -/
theorem outcome_checkPermissions (store : KeyStore) (w : World) : (outcome store.checkPermissions w).1 = .ok () := by
  have hstat : outcome (step (Host.stat store.keyPath)) w = (.ok (w.stat? store.keyPath), w) := rfl
  unfold checkPermissions
  rw [outcome_bind_ok hstat]
  split
  · split <;> rfl
  · rfl

/-- Loading a key from a key file that is there. -/
def loadFile (store : KeyStore) : Run (StateM World) MasterKey := do
  store.checkPermissions
  let text ← attempt (fun fault => .store (.unreadable fault)) (Host.readText store.keyPath)
  let key ← store.unwrap text
  debug "master key loaded" []
  return key

theorem reads_loadFile (store : KeyStore) : Reads store.loadFile := by
  refine (reads_checkPermissions store).bind fun _ => (reads_readText _ _).bind fun text => ?_
  exact (reads_unwrap store text).bind fun key => (tells_debug _ _).reads.bind fun _ => reads_pure key

theorem loadFile_eq_ok_iff {store : KeyStore} {w : World} {key : MasterKey} :
    (outcome store.loadFile w).1 = .ok key ↔
      ∃ text mode, w.files.stat w.here store.keyPath = .ok (.file (Bytes.ofText text) mode) ∧
        (outcome (store.unwrap text) w).1 = .ok key := by
  have hkept (text : String) : Reads (do
      let key ← store.unwrap text
      debug "master key loaded" []
      return key) := (reads_unwrap store text).bind fun key => (tells_debug _ _).reads.bind fun _ => reads_pure key
  have htext := reads_readText (fun fault => .store (.unreadable fault)) store.keyPath
  unfold loadFile
  constructor
  · intro h
    obtain ⟨_, -, h⟩ := (reads_checkPermissions store).exists_of_bind_ok (fun _ => htext.bind hkept) h
    obtain ⟨text, hread, h⟩ := htext.exists_of_bind_ok hkept h
    obtain ⟨mode, hstat⟩ := outcome_readText_ok.mp hread
    obtain ⟨found, hfound, h⟩ := exists_of_bind_ok h
    obtain rfl : found = key := Except.ok.inj h
    exact ⟨text, mode, hstat, hfound⟩
  · rintro ⟨text, mode, hstat, hkey⟩
    refine (reads_checkPermissions store).bind_ok (fun _ => htext.bind hkept) (outcome_checkPermissions store w) ?_
    refine htext.bind_ok hkept (outcome_readText_ok.mpr ⟨mode, hstat⟩) ?_
    rw [outcome_bind_ok (Prod.ext hkey rfl)]
    rfl

/-- Loading a key from where there is no key file fails. -/
theorem loadMaster_eq (store : KeyStore) :
    store.loadMaster = (do
      debug "loading master key" [Log.plain "path" store.keyPath, Log.inQuotes "wrap" store.name]
      if ← store.hasMaster then store.loadFile else fail (.store (.noMasterKey store.location))) := rfl

theorem reads_loadMaster (store : KeyStore) : Reads store.loadMaster := by
  rw [loadMaster_eq]
  refine (tells_debug _ _).reads.bind fun _ => (reads_pathExists _).bind fun found => ?_
  split
  · exact reads_loadFile store
  · exact reads_fail _

/-- A key is loaded from the text of the key file, when that opens. -/
theorem loadMaster_eq_ok_iff {store : KeyStore} {w : World} {key : MasterKey} :
    (outcome store.loadMaster w).1 = .ok key ↔
      ∃ text mode, w.files.stat w.here store.keyPath = .ok (.file (Bytes.ofText text) mode) ∧
        (outcome (store.unwrap text) w).1 = .ok key := by
  have hbranch (found : Bool) : Reads (if found then store.loadFile else fail (.store (.noMasterKey store.location))) := by
    cases found with
    | true => exact reads_loadFile store
    | false => exact reads_fail _
  have hexists : (outcome store.hasMaster w).1 = .ok (w.stat? store.keyPath).isSome := rfl
  have hdebug (message : String) (fields : List Log.Field) : (outcome (debug message fields) w).1 = .ok () := rfl
  have hlook := (reads_pathExists store.keyPath).bind hbranch
  rw [loadMaster_eq, ← loadFile_eq_ok_iff]
  constructor
  · intro h
    obtain ⟨_, -, h⟩ := (tells_debug _ _).reads.exists_of_bind_ok (fun _ => hlook) h
    obtain ⟨found, -, h⟩ := (reads_pathExists _).exists_of_bind_ok hbranch h
    cases found with
    | true => exact h
    | false => cases h
  · intro h
    refine (tells_debug _ _).reads.bind_ok (fun _ => hlook) (hdebug _ _) ?_
    refine (reads_pathExists _).bind_ok hbranch hexists ?_
    obtain ⟨text, mode, hstat, -⟩ := loadFile_eq_ok_iff.mp h
    have hsome : (w.stat? store.keyPath).isSome = true := by
      rw [World.stat?, hstat]
      rfl
    rw [hsome]
    exact h

/-! ## The key that is held -/

/-- The store that settings choose holds a key. -/
def Holds (cipher : FileCipher) (keys : KeySettings) (w : World) (key : MasterKey) : Prop :=
  ∃ store, (outcome (ofSettings cipher keys) w).1 = .ok store ∧ (outcome store.loadMaster w).1 = .ok key

variable {cipher : FileCipher} {keys : KeySettings} {store : KeyStore} {w other : World} {key : MasterKey} {text : String}

/-- A store that looks the same holds the same key. -/
theorem Holds.of_looksLike (h : Holds cipher keys w key) (hw : w.LooksLike other) : Holds cipher keys other key := by
  obtain ⟨store, hstore, hload⟩ := h
  exact ⟨store, ((reads_ofSettings cipher keys).outcome_eq hw).trans hstore, ((reads_loadMaster store).outcome_eq hw).trans hload⟩

/-- What keys are wrapped for stays when the environment does, and the identity file. -/
theorem fileKey_kept {wrap : KeyWrap} {fileKey : Option FileKey} (h : (outcome wrap.fileKey w).1 = .ok fileKey)
    (hsite : w.SharesSite other) (hidentity : ∀ path, wrap = .identity path → w.KeepsText other path) :
    (outcome wrap.fileKey other).1 = .ok fileKey := by
  rw [fileKey_eq_ok_iff] at h ⊢
  cases wrap with
  | bare => exact h
  | passphrase name =>
    dsimp only at h ⊢
    rw [hsite.envValue?]
    exact h
  | identity path =>
    obtain ⟨text, mode, identity, hstat, hfound, hkey⟩ := h
    refine ⟨text, mode, identity, ?_, hfound, hkey⟩
    rw [hsite.here]
    exact hidentity path rfl text mode hstat (opensNoObject_of_ofText? hfound)

/-- The text of a key file that opens is no document with secrets. -/
theorem opensNoObject_of_unwrap (hform : store.cipher.isEncrypted = Age.Armor.isArmored)
    (h : (outcome (store.unwrap text) w).1 = .ok key) : OpensNoObject text := by
  obtain ⟨hdetect, fileKey, hkey, hopen⟩ := unwrap_eq_ok_iff.mp h
  unfold detect at hdetect
  split at hdetect
  · rename_i harmored
    rw [hform] at harmored
    exact opensNoObject_of_isArmored harmored
  · have hbare : store.wrap = .bare := by
      cases hwrap : store.wrap with
      | bare => rfl
      | passphrase name =>
        rw [hwrap] at hdetect
        cases hdetect
      | identity path =>
        rw [hwrap] at hdetect
        cases hdetect
    rw [hbare, fileKey_eq_ok_iff] at hkey
    obtain rfl : fileKey = none := hkey
    exact opensNoObject_of_ofBase64 hopen

/-- A key that is held stands in the key file, as a text that is no document with secrets. -/
theorem Holds.exists_text (h : Holds cipher keys w key) (hform : cipher.isEncrypted = Age.Armor.isArmored) :
    ∃ path text mode, keys.keyPath? w = some path ∧ w.files.stat w.here path = .ok (.file (Bytes.ofText text) mode) ∧
      OpensNoObject text := by
  obtain ⟨store, hstore, hload⟩ := h
  obtain ⟨dir, wrap, hdir, -, rfl⟩ := ofSettings_eq_ok_iff.mp hstore
  obtain ⟨text, mode, hstat, hopen⟩ := loadMaster_eq_ok_iff.mp hload
  refine ⟨_, text, mode, ?_, hstat, opensNoObject_of_unwrap hform hopen⟩
  rw [KeySettings.keyPath?, hdir]
  rfl

/-- The settings name an identity file when keys are wrapped for an identity. -/
theorem identity_of_wrap? {path : String} (h : keys.wrap? = some (.identity path)) : keys.identity = some path := by
  unfold KeySettings.wrap? at h
  split at h
  · cases h
  · cases h
  · obtain ⟨found, hfound, heq⟩ := Option.map_eq_some_iff.mp h
    rw [hfound, KeyWrap.identity.inj heq]
  · cases h

/-- The store holds the same key as long as the environment stays, the key file, and the identity file. -/
theorem Holds.kept (h : Holds cipher keys w key) (hform : cipher.isEncrypted = Age.Armor.isArmored) (hsite : w.SharesSite other)
    (hkeyFile : ∀ path, keys.keyPath? w = some path → w.KeepsText other path)
    (hidentity : ∀ path, keys.identity = some path → w.KeepsText other path) : Holds cipher keys other key := by
  obtain ⟨store, hstore, hload⟩ := h
  obtain ⟨dir, wrap, hdir, hwrap, rfl⟩ := ofSettings_eq_ok_iff.mp hstore
  obtain ⟨text, mode, hstat, hopen⟩ := loadMaster_eq_ok_iff.mp hload
  have hpath : keys.keyPath? w = some (KeyStore.keyPath ⟨dir, wrap, cipher⟩) := by
    rw [KeySettings.keyPath?, hdir]
    rfl
  refine ⟨⟨dir, wrap, cipher⟩, ofSettings_eq_ok_iff.mpr ⟨dir, wrap, ?_, hwrap, rfl⟩, ?_⟩
  · rw [hsite.dir?, hdir]
  refine loadMaster_eq_ok_iff.mpr ⟨text, mode, ?_, ?_⟩
  · rw [hsite.here]
    exact hkeyFile _ hpath text mode hstat (opensNoObject_of_unwrap hform hopen)
  obtain ⟨hdetect, fileKey, hkey, hopens⟩ := unwrap_eq_ok_iff.mp hopen
  refine unwrap_eq_ok_iff.mpr ⟨hdetect, fileKey, fileKey_kept hkey hsite fun path hpath => ?_, hopens⟩
  refine hidentity path (identity_of_wrap? ?_)
  rw [hwrap]
  exact congrArg some hpath

end KeyStore

end SealedConfig
