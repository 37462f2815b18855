import SealedConfig.Proofs.KeyStore.Holding
import SealedConfig.Proofs.MasterKey

/-!
# Making a master key

Unless it is forced, a new master key is written only where no key file is found, so nothing that stands is lost, provided that the
path hides no file. The key that was made is the one that the store holds from then on. All that can fail comes before the key file is
written, so a key that is not made leaves nothing behind but directories.
-/

namespace SealedConfig

open Run FileTree

namespace KeyStore

variable {store : KeyStore} {w after : World} {key : MasterKey}

/-! ## What is written -/

/-- The text that a key file is given: that of the key, or what it is encrypted to. -/
def IsWrapped (cipher : FileCipher) (key : MasterKey) (text : String) : Option FileKey → Prop
  | none => text = key.toBase64 ++ "\n"
  | some fileKey => ∃ random : Bytes, random.length = cipher.randomSize fileKey ∧
      text = cipher.encrypt fileKey random (Bytes.ofText key.toBase64)

/-- Wrapping a key disturbs nothing, and gives a text that is wrapped for what the store wraps for. -/
theorem wrapped_cases {result : Except Failure String} (h : outcome (store.wrapped key) w = (result, after)) :
    w.Undisturbed after ∧ ∀ text, result = .ok text →
      ∃ fileKey, (outcome store.wrap.fileKey w).1 = .ok fileKey ∧ IsWrapped store.cipher key text fileKey := by
  unfold wrapped at h
  have hkey := (reads_fileKey store.wrap).undisturbed w
  rcases cases_of_bind h with ⟨failure, hfail, rfl⟩ | ⟨fileKey, middle, hfound, hrest⟩
  · rw [hfail] at hkey
    exact ⟨hkey, nofun⟩
  · rw [hfound] at hkey
    cases fileKey with
    | none =>
      obtain ⟨rfl, rfl⟩ := Prod.mk.inj hrest
      exact ⟨hkey, fun text htext => ⟨none, by rw [hfound], (Except.ok.inj htext).symm⟩⟩
    | some fileKey =>
      have hdraw : outcome (random (store.cipher.randomSize fileKey)) middle =
          (.ok (middle.draw (store.cipher.randomSize fileKey)),
            { middle with drawn := middle.drawn + store.cipher.randomSize fileKey }) := rfl
      dsimp only at hrest
      rw [outcome_bind_ok hdraw] at hrest
      obtain ⟨rfl, rfl⟩ := Prod.mk.inj hrest
      refine ⟨⟨⟨hkey.files, hkey.here, hkey.environment, hkey.fallbackHome⟩, hkey.input, hkey.output, hkey.now⟩, fun text htext => ?_⟩
      exact ⟨some fileKey, by rw [hfound], _, Vector.length_toList, (Except.ok.inj htext).symm⟩

/-- A text that is wrapped for what the store wraps for is told for that. -/
theorem detect_wrapped {text : String} {fileKey : Option FileKey} (hlawful : store.cipher.Lawful)
    (hform : store.cipher.isEncrypted = Age.Armor.isArmored) (hkey : (outcome store.wrap.fileKey w).1 = .ok fileKey)
    (h : IsWrapped store.cipher key text fileKey) : detect store.cipher text = .ok store.wrap.protection := by
  rw [fileKey_eq_ok_iff] at hkey
  unfold detect
  cases hwrap : store.wrap with
  | bare =>
    rw [hwrap] at hkey
    obtain rfl : fileKey = none := hkey
    obtain rfl : text = key.toBase64 ++ "\n" := h
    rw [hform, isArmored_toBase64]
    rfl
  | passphrase name =>
    rw [hwrap] at hkey
    obtain ⟨phrase, -, rfl⟩ := hkey
    obtain ⟨random, hsize, rfl⟩ := h
    rw [hlawful.isEncrypted_encrypt, hlawful.needsPassphrase_passphrase phrase random _ hsize]
    rfl
  | identity path =>
    rw [hwrap] at hkey
    obtain ⟨_, _, identity, -, -, rfl⟩ := hkey
    obtain ⟨random, hsize, rfl⟩ := h
    rw [hlawful.isEncrypted_encrypt, hlawful.needsPassphrase_identity identity random _ hsize]
    rfl

/-- A wrapped key opens to the key. -/
theorem opens_wrapped {cipher : FileCipher} {text : String} {fileKey : Option FileKey} (hlawful : cipher.Lawful)
    (h : IsWrapped cipher key text fileKey) : Opens cipher text key fileKey := by
  cases fileKey with
  | none =>
    obtain rfl : text = key.toBase64 ++ "\n" := h
    exact key.ofBase64_line
  | some fileKey =>
    obtain ⟨random, hsize, rfl⟩ := h
    exact ⟨_, hlawful.decrypt_encrypt fileKey random _ hsize, key.ofTextBytes_toBase64⟩

/-! ## The whole of it -/

/-- Making a key where none is found. -/
def makeMaster {m : Type → Type} [Host m] (store : KeyStore) : Run m MasterKey := do
  let key := MasterKey.mk (← random 32)
  let content ← store.wrapped key
  attempt (fun fault => .store (.unwritable fault)) (Host.createDirectories store.dir)
  attempt (fun fault => .store (.unwritable fault)) (Host.writePrivate store.keyPath (Bytes.ofText content))
  debug "master key saved" [Log.plain "path" store.keyPath, Log.inQuotes "wrap" store.name]
  return key

theorem createMaster_eq {m : Type → Type} [Host m] (store : KeyStore) (force : Bool) :
    (store.createMaster force : Run m MasterKey) = (do
      if (← store.hasMaster) && !force then fail (.store (.alreadyExists store.location))
      else
        if store.wrap = .bare then
          warn "master key stored without wrapping" [Log.plain "path" store.keyPath]
        store.makeMaster) := rfl

/-- A location that the directory of a store points at, or a path above it: where making a key may make a directory. -/
def MayHold (store : KeyStore) (here location : Location) : Prop :=
  ∃ above, FilePath.Above store.dir above ∧ location = points here above

/-- Making a key changes nothing but for new directories until the key file is written, with the key in a text that opens to it. -/
theorem makeMaster_cases {result : Except Failure MasterKey} (h : outcome store.makeMaster w = (result, after)) :
    ∃ grown, w.Grown grown ∧ w.files.GainsDirectories (store.MayHold w.here) grown.files ∧
      ((∃ failure, result = .error failure) ∧ after = grown ∨
        ∃ key text fileKey files, result = .ok key ∧ (outcome store.wrap.fileKey w).1 = .ok fileKey ∧
          IsWrapped store.cipher key text fileKey ∧
          grown.files.writePrivate grown.here store.keyPath (Bytes.ofText text) = .ok files ∧
          World.Undisturbed { grown with files := files } after) := by
  unfold makeMaster at h
  have hdraw : outcome (random 32) w = (.ok (w.draw 32), { w with drawn := w.drawn + 32 }) := rfl
  have hdrawn : w.Undisturbed { w with drawn := w.drawn + 32 } := ⟨⟨rfl, rfl, rfl, rfl⟩, rfl, rfl, rfl⟩
  rw [outcome_bind_ok hdraw] at h
  have hgains {looking made : World} {made? : Except Failure Unit} (hlooking : w.LooksLike looking)
      (hmade : outcome (attempt (fun fault => .store (.unwritable fault)) (Host.createDirectories store.dir)) looking = (made?, made)) :
      w.files.GainsDirectories (store.MayHold w.here) made.files := by
    have hdirectories := gains_of_createDirectories hmade
    rw [hlooking.files, hlooking.here] at hdirectories
    exact hdirectories
  rcases cases_of_bind h with ⟨failure, hfail, rfl⟩ | ⟨text, wrapped, htext, h⟩
  · have hundisturbed := hdrawn.trans (wrapped_cases hfail).1
    refine ⟨after, hundisturbed.grown, ?_, Or.inl ⟨⟨failure, rfl⟩, rfl⟩⟩
    rw [hundisturbed.files]
    exact .refl _ _
  obtain ⟨hundisturbed, hwrapped⟩ := wrapped_cases htext
  obtain ⟨fileKey, hkey, hwrap⟩ := hwrapped text rfl
  have hbefore : w.Undisturbed wrapped := hdrawn.trans hundisturbed
  rcases cases_of_bind h with ⟨failure, hfail, rfl⟩ | ⟨_, grown, hdirectories, h⟩
  · exact ⟨after, hbefore.grown.trans (grown_of_createDirectories hfail), hgains hbefore.toLooksLike hfail, Or.inl ⟨⟨failure, rfl⟩, rfl⟩⟩
  have hgrown : w.Grown grown := hbefore.grown.trans (grown_of_createDirectories hdirectories)
  refine ⟨grown, hgrown, hgains hbefore.toLooksLike hdirectories, ?_⟩
  rcases cases_of_writePrivate_bind h with ⟨⟨fault, rfl⟩, rfl⟩ | ⟨files, hfiles, h⟩
  · exact Or.inl ⟨⟨_, rfl⟩, rfl⟩
  obtain ⟨event, htells⟩ := tells_debug "master key saved" [Log.plain "path" store.keyPath, Log.inQuotes "wrap" store.name]
  rw [outcome_bind_ok (htells _)] at h
  obtain ⟨rfl, rfl⟩ := Prod.mk.inj h
  refine Or.inr ⟨_, text, fileKey, files, rfl, ?_, hwrap, hfiles, World.undisturbed_tell _ event⟩
  exact ((reads_fileKey store.wrap).outcome_eq hdrawn.toLooksLike).symm.trans hkey

/-- Unless it is forced, a key is made only where none is found. -/
theorem createMaster_cases {force : Bool} {result : Except Failure MasterKey}
    (h : outcome (store.createMaster force) w = (result, after)) :
    (∃ failure, result = .error failure) ∧ after = w ∨
      (force = false → ∀ node, w.files.stat w.here store.keyPath ≠ .ok node) ∧
        ∃ told, w.Undisturbed told ∧ outcome store.makeMaster told = (result, after) := by
  have hexists : outcome store.hasMaster w = (.ok (w.stat? store.keyPath).isSome, w) := rfl
  rw [createMaster_eq, outcome_bind_ok hexists] at h
  split at h
  · obtain ⟨rfl, rfl⟩ := Prod.mk.inj h
    exact Or.inl ⟨⟨_, rfl⟩, rfl⟩
  · rename_i hmissing
    refine Or.inr ⟨?_, ?_⟩
    · rintro rfl node hstat
      rw [World.stat?, hstat] at hmissing
      exact hmissing rfl
    split at h
    · obtain ⟨event, htells⟩ := tells_warn "master key stored without wrapping" [Log.plain "path" store.keyPath]
      rw [outcome_bind_ok (htells w)] at h
      exact ⟨_, w.undisturbed_tell event, h⟩
    · exact ⟨w, .refl w, h⟩

/-- A key that cannot be made leaves nothing but new directories, at the directory of the store or above it. -/
theorem gains_of_createMaster {force : Bool} {failure : Failure}
    (h : outcome (store.createMaster force) w = (.error failure, after)) :
    w.files.GainsDirectories (store.MayHold w.here) after.files := by
  rcases createMaster_cases h with ⟨-, rfl⟩ | ⟨-, told, htold, hmake⟩
  · exact .refl _ _
  obtain ⟨grown, -, hgains, ⟨-, rfl⟩ | ⟨key, -, -, -, hfailure, -⟩⟩ := makeMaster_cases hmake
  · rw [htold.files, htold.here] at hgains
    exact hgains
  · cases hfailure

/-- A key that is made takes the place of nothing that stood before, unless its path hid a file then. -/
theorem enlarged_of_createMaster {before : World} (hbefore : before.Enlarged w)
    (hhides : ¬before.files.Hides before.here store.keyPath) {result : Except Failure MasterKey}
    (h : outcome (store.createMaster false) w = (result, after)) : before.Enlarged after := by
  rcases createMaster_cases h with ⟨-, rfl⟩ | ⟨hnone, told, htold, hmake⟩
  · exact hbefore
  · have hnew : ∀ node, before.files.stat before.here store.keyPath ≠ .ok node := by
      intro node hstat
      refine hnone rfl node ?_
      rw [hbefore.here]
      exact hbefore.stat_eq_ok hstat
    obtain ⟨grown, hgrown, -, ⟨-, rfl⟩ | ⟨key, text, fileKey, files, -, -, -, hfiles, hlast⟩⟩ := makeMaster_cases hmake
    · exact (hbefore.trans htold.toLooksLike.enlarged).trans hgrown.toEnlarged
    · have hall : before.Enlarged grown := (hbefore.trans htold.toLooksLike.enlarged).trans hgrown.toEnlarged
      exact (enlarged_of_writePrivate hnew hhides hall hfiles).trans hlast.toLooksLike.enlarged

/-- A key is loaded from a key file with a text that is wrapped for what the store wraps for. -/
theorem loadMaster_of_wrapped {text : String} {mode : Nat} {fileKey : Option FileKey} (hlawful : store.cipher.Lawful)
    (hform : store.cipher.isEncrypted = Age.Armor.isArmored)
    (hstat : w.files.stat w.here store.keyPath = .ok (.file (Bytes.ofText text) mode))
    (hkey : (outcome store.wrap.fileKey w).1 = .ok fileKey) (hwrap : IsWrapped store.cipher key text fileKey) :
    (outcome store.loadMaster w).1 = .ok key :=
  loadMaster_eq_ok_iff.mpr ⟨text, mode, hstat, unwrap_eq_ok_iff.mpr
    ⟨detect_wrapped hlawful hform hkey hwrap, fileKey, hkey, opens_wrapped hlawful hwrap⟩⟩

/-- A key that is made stands in the key file, in a text that is wrapped for what the store wraps for. -/
theorem createMaster_ok {force : Bool} (h : outcome (store.createMaster force) w = (.ok key, after)) :
    ∃ text fileKey, (outcome store.wrap.fileKey w).1 = .ok fileKey ∧ IsWrapped store.cipher key text fileKey ∧
      after.files.stat after.here store.keyPath = .ok (.file (Bytes.ofText text) privateMode) ∧
      ∃ grown, w.Grown grown ∧ w.SharesSite after ∧
        grown.files.writePrivate grown.here store.keyPath (Bytes.ofText text) = .ok after.files := by
  rcases createMaster_cases h with ⟨⟨failure, hfailure⟩, -⟩ | ⟨-, told, htold, hmake⟩
  · cases hfailure
  obtain ⟨grown, hgrown, -, ⟨⟨failure, hfailure⟩, -⟩ | ⟨made, text, fileKey, files, hmade, hkey, hwrap, hfiles, hlast⟩⟩ :=
    makeMaster_cases hmake
  · cases hfailure
  obtain rfl : key = made := Except.ok.inj hmade
  have hall : w.Grown grown := htold.grown.trans hgrown
  have hwritten : after.files = files := hlast.files
  have hsite : grown.SharesSite after := ⟨hlast.here, hlast.environment, hlast.fallbackHome⟩
  refine ⟨text, fileKey, ?_, hwrap, ?_, grown, hall, hall.toSharesSite.trans hsite, hwritten ▸ hfiles⟩
  · exact ((reads_fileKey store.wrap).outcome_eq htold.toLooksLike).symm.trans hkey
  · rw [hlast.files, hlast.here]
    exact stat_of_writePrivate hfiles

/-- A key that is made is the one that is loaded from then on, and no input is read for it and nothing put out. -/
theorem loadMaster_of_createMaster (hlawful : store.cipher.Lawful) (hform : store.cipher.isEncrypted = Age.Armor.isArmored)
    (hhides : ¬w.files.Hides w.here store.keyPath) {result : Except Failure MasterKey}
    (h : outcome (store.createMaster false) w = (result, after)) :
    w.Grown after ∧ ∀ key, result = .ok key → (outcome store.loadMaster after).1 = .ok key := by
  have henlarged := enlarged_of_createMaster (.refl w) hhides h
  refine ⟨?_, ?_⟩
  · rcases createMaster_cases h with ⟨-, rfl⟩ | ⟨-, told, htold, hmake⟩
    · exact .refl after
    obtain ⟨grown, hgrown, -, ⟨-, rfl⟩ | ⟨key, text, fileKey, files, -, -, -, -, hlast⟩⟩ := makeMaster_cases hmake
    · exact htold.grown.trans hgrown
    · refine ⟨henlarged, ?_, ?_⟩
      · exact (hlast.input.trans hgrown.input).trans htold.input
      · exact (hlast.output.trans hgrown.output).trans htold.output
  · rintro key rfl
    obtain ⟨text, fileKey, hkey, hwrap, hstat, -⟩ := createMaster_ok h
    have hkept := fileKey_kept hkey henlarged.toSharesSite fun path _ => henlarged.keepsText path
    exact loadMaster_of_wrapped hlawful hform hstat hkept hwrap

/-- A provider is over the key that is loaded from then on, which is made over nothing if there is none. -/
theorem providerOrNew_cases (hlawful : store.cipher.Lawful) (hform : store.cipher.isEncrypted = Age.Armor.isArmored)
    (hhides : ¬w.files.Hides w.here store.keyPath) {application : String} {result : Except Failure Provider}
    (h : outcome (store.providerOrNew application) w = (result, after)) :
    w.Grown after ∧ ∀ provider, result = .ok provider →
      ∃ key, (outcome store.loadMaster after).1 = .ok key ∧ provider = ⟨key, application⟩ := by
  have hexists : outcome store.hasMaster w = (.ok (w.stat? store.keyPath).isSome, w) := rfl
  unfold providerOrNew at h
  rw [outcome_bind_ok hexists] at h
  split at h
  · unfold provider at h
    have hload := (reads_loadMaster store).undisturbed w
    rcases cases_of_bind h with ⟨failure, hfail, rfl⟩ | ⟨key, loaded, hkey, hdone⟩
    · rw [hfail] at hload
      exact ⟨hload.grown, nofun⟩
    · rw [hkey] at hload
      obtain ⟨rfl, rfl⟩ := Prod.mk.inj hdone
      refine ⟨hload.grown, fun provider hprovider => ⟨key, ?_, (Except.ok.inj hprovider).symm⟩⟩
      exact ((reads_loadMaster store).outcome_eq hload.toLooksLike).trans (congrArg Prod.fst hkey)
  · obtain ⟨event, htells⟩ := tells_inform "generating master key"
      [Log.inQuotes "store" store.name, Log.plain "location" store.location]
    rw [outcome_bind_ok (htells w)] at h
    have htold := w.undisturbed_tell event
    have hhidden : ¬(w.tell event).files.Hides (w.tell event).here store.keyPath := by
      rw [htold.files, htold.here]
      exact hhides
    rcases cases_of_bind h with ⟨failure, hfail, rfl⟩ | ⟨key, made, hmade, hdone⟩
    · exact ⟨htold.grown.trans (loadMaster_of_createMaster hlawful hform hhidden hfail).1, nofun⟩
    · obtain ⟨rfl, rfl⟩ := Prod.mk.inj hdone
      obtain ⟨hgrown, hload⟩ := loadMaster_of_createMaster hlawful hform hhidden hmade
      exact ⟨htold.grown.trans hgrown, fun provider hprovider => ⟨key, hload key rfl, (Except.ok.inj hprovider).symm⟩⟩

end KeyStore

end SealedConfig
