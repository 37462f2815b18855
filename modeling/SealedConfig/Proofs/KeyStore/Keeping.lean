import SealedConfig.Proofs.CommandLine.Session
import SealedConfig.Proofs.KeyStore.Mishaps

/-!
# Keeping a master key

What can be relied on about the one file that all secrets hang on: a key that is made, forced or not, is the key that is loaded, one
that cannot be made leaves what was there before, and a key file that is wrapped otherwise than the store wraps is refused at its text.
-/

namespace SealedConfig

open Run FileTree

namespace KeyStore

variable {store : KeyStore} {w after : World} {key : MasterKey} {text : String} {found : Protection}

/-! ## Key files that are refused -/

/-- The failure that a key file is wrapped otherwise than the store wraps. -/
def mismatch (store : KeyStore) (found : Protection) : Failure :=
  .store (.wrapMismatch store.keyPath store.wrap.protection found)

/-- A store refuses its key file for the way it is wrapped. It needs the text of the file for that and nothing else: on every host,
what comes of the text is the failure, without a step of the host. -/
structure Refuses (store : KeyStore) (w : World) (found : Protection) : Prop where
  loadMaster : (outcome store.loadMaster w).1 = .error (store.mismatch found)
  unwrap : ∃ text mode, w.files.stat w.here store.keyPath = .ok (.file (Bytes.ofText text) mode) ∧
    ∀ {m : Type → Type} [Host m] [LawfulMonad m], (store.unwrap text : Run m MasterKey) = fail (store.mismatch found)

/-- A text that is wrapped otherwise than the store wraps is refused without a step of the host. -/
theorem unwrap_eq_fail (hfound : detect store.cipher text = .ok found) (hne : found ≠ store.wrap.protection) {m : Type → Type}
    [Host m] [LawfulMonad m] : (store.unwrap text : Run m MasterKey) = fail (store.mismatch found) := by
  have hsettled : (settle .fileCipher (detect store.cipher text) : Run m Protection) = pure found := by
    rw [hfound]
    rfl
  unfold KeyStore.unwrap
  rw [hsettled, pure_bind, if_pos hne]
  rfl

/-- A key file that is wrapped otherwise than the store wraps is refused, whatever the rest of the world is like. -/
theorem refuses_of_detect {mode : Nat} (hstat : w.files.stat w.here store.keyPath = .ok (.file (Bytes.ofText text) mode))
    (hfound : detect store.cipher text = .ok found) (hne : found ≠ store.wrap.protection) : store.Refuses w found := by
  refine ⟨?_, text, mode, hstat, unwrap_eq_fail hfound hne⟩
  have hexists : Yields w store.hasMaster (.ok true) := by
    have hsome : (outcome store.hasMaster w).1 = .ok true := by
      have hrun : (outcome store.hasMaster w).1 = .ok (w.stat? store.keyPath).isSome := rfl
      rw [hrun, World.stat?, hstat]
      rfl
    exact hsome ▸ (reads_pathExists store.keyPath).yields w
  have hpermissions : Yields w store.checkPermissions (.ok ()) :=
    outcome_checkPermissions store w ▸ (reads_checkPermissions store).yields w
  have htext : Yields w (attempt (fun fault => .store (.unreadable fault)) (Host.readText store.keyPath)) (.ok text) :=
    outcome_readText_ok.mpr ⟨mode, hstat⟩ ▸ (reads_readText _ store.keyPath).yields w
  have hunwrap : Yields w (store.unwrap text) (.error (store.mismatch found)) := by
    rw [unwrap_eq_fail hfound hne]
    exact yields_fail w _
  have hfile : Yields w store.loadFile (.error (store.mismatch found)) :=
    hpermissions.bind_ok (htext.bind_ok hunwrap.bind_error)
  have hload : Yields w store.loadMaster (.error (store.mismatch found)) := by
    rw [loadMaster_eq]
    exact ((tells_debug _ _).yields w).bind_ok (hexists.bind_ok hfile)
  exact (hload w (.refl w)).1

/-! ## The key that is made -/

/-- A key that is made is loaded, if the file with the identity that it is wrapped for is not the key file itself. -/
theorem loadMaster_of_made (hlawful : store.cipher.Lawful) (hform : store.cipher.isEncrypted = Age.Armor.isArmored) {force : Bool}
    (h : outcome (store.createMaster force) w = (.ok key, after))
    (hapart : ∀ path, store.wrap = .identity path → points w.here path ≠ points w.here store.keyPath) :
    (outcome store.loadMaster after).1 = .ok key := by
  obtain ⟨text, fileKey, hkey, hwrap, hstat, grown, hgrown, hsite, hwrite⟩ := createMaster_ok h
  rw [hgrown.here] at hwrite
  -- the identity file stands through new directories and through a write at another location
  have hidentity (path : String) (hpath : store.wrap = .identity path) : w.KeepsText after path := by
    intro found mode hfound _
    exact stat_writePrivate_other hwrite (hapart path hpath).symm (hgrown.files.stat_eq_ok hfound)
  exact loadMaster_of_wrapped hlawful hform hstat (fileKey_kept hkey hsite hidentity) hwrap

/-- Making a key on a device that may refuse any step. A key that is made, also in the place of another one, is the key that is loaded
from then on, as long as it is not wrapped for an identity that its own file held; and a store of the same directory that wraps
otherwise refuses the key file in every world in which it still stands, for the two ways of wrapping and with nothing else read.

If the key cannot be made, then all is as it was but for new directories at the directory of the store or above it; so the place of the
key file is as it was, unless the path of the directory itself leads through it. Only a mishap that strikes the writing of the key file
itself, which by then has been emptied, leaves the first part of the new text there, and tells so. That happens to a key that stood
there only by force. -/
theorem createMaster_keeps (hlawful : store.cipher.Lawful) (hform : store.cipher.isEncrypted = Age.Armor.isArmored) (force : Bool)
    (faulty : FaultyWorld) :
    (ending (store.createMaster force) faulty).2.mishaps = faulty.mishaps ∧
      match ending (store.createMaster force) faulty with
      | (.ok key, left) =>
        ((∀ path, store.wrap = .identity path → points faulty.world.here path ≠ points faulty.world.here store.keyPath) →
            (outcome store.loadMaster left.world).1 = .ok key) ∧
          ∀ (wrap : KeyWrap) (later : World), wrap.protection ≠ store.wrap.protection →
            later.files.stat later.here store.keyPath = left.world.files.stat left.world.here store.keyPath →
              Refuses { store with wrap := wrap } later store.wrap.protection
      | (.error failure, left) =>
        faulty.world.files.GainsDirectories (store.MayHold faulty.world.here) left.world.files ∧
            (¬store.MayHold faulty.world.here (points faulty.world.here store.keyPath) →
              left.world.files.get? (points faulty.world.here store.keyPath) =
                faulty.world.files.get? (points faulty.world.here store.keyPath)) ∨
          (force = true ∨ ∀ node, faulty.world.files.stat faulty.world.here store.keyPath ≠ .ok node) ∧
            ∃ mishap, left.JustMet mishap ∧ failure = .store (.unwritable mishap.fault) ∧
              store.CutShort faulty.world left.world.files := by
  have hkept {after : FileTree} (hgains : faulty.world.files.GainsDirectories (store.MayHold faulty.world.here) after) :
      ¬store.MayHold faulty.world.here (points faulty.world.here store.keyPath) →
        after.get? (points faulty.world.here store.keyPath) = faulty.world.files.get? (points faulty.world.here store.keyPath) :=
    fun hapart => (hgains _).resolve_right fun hnew => hapart hnew.2.2
  have hfollows := store.follows_createMaster force
  rcases hrun : ending (store.createMaster force) faulty with ⟨failure | key, left⟩
  · obtain ⟨hmishaps, hcalm | ⟨hgains | hcut, hallowed⟩⟩ := hfollows.error hrun
    · have hgains := gains_of_createMaster hcalm
      exact ⟨hmishaps, Or.inl ⟨hgains, hkept hgains⟩⟩
    · exact ⟨hmishaps, Or.inl ⟨hgains, hkept hgains⟩⟩
    · exact ⟨hmishaps, Or.inr ⟨hallowed, hcut⟩⟩
  · obtain ⟨hmishaps, hcalm⟩ := hfollows.ok hrun
    refine ⟨hmishaps, loadMaster_of_made hlawful hform hcalm, fun wrap later hwrap hsame => ?_⟩
    obtain ⟨text, fileKey, hkey, hwrapped, hstat, -⟩ := createMaster_ok hcalm
    exact refuses_of_detect (hsame.trans hstat) (detect_wrapped hlawful hform hkey hwrapped) hwrap.symm

section

open CommandLine (openCipher openCipher_lawful sampleHome)

/-- A store that wraps keys for a passphrase, in the directory of a bare key file. -/
def phraseStore : KeyStore := ⟨"keys", .passphrase "PHRASE", openCipher⟩

/-- A world with a bare key file, and a passphrase in the environment. -/
def phraseHome : World := { sampleHome with environment := [("PHRASE", "open sesame")] }

/-- A key that is forced into the place of a bare one is loaded, and a store that leaves keys bare refuses it. -/
theorem createMaster_keeps_forced : ∃ key left,
    openCipher.Lawful ∧ openCipher.isEncrypted = Age.Armor.isArmored ∧
      ending (phraseStore.createMaster true) (FaultyWorld.sound phraseHome) = (.ok key, left) ∧
      (outcome phraseStore.loadMaster left.world).1 = .ok key ∧ Refuses { phraseStore with wrap := .bare } left.world .passphrase := by
  obtain ⟨key, left, hmade⟩ : ∃ key left,
      ending (phraseStore.createMaster true) (FaultyWorld.sound phraseHome) = (.ok key, left) := ⟨_, _, rfl⟩
  have hkeeps := (@createMaster_keeps phraseStore openCipher_lawful rfl true (FaultyWorld.sound phraseHome)).2
  rw [hmade] at hkeeps
  exact ⟨key, left, openCipher_lawful, rfl, hmade, hkeeps.1 nofun, hkeeps.2 .bare _ nofun rfl⟩

-- on a device that is full once the key file has been opened, a key that is forced into the place of another is cut short there
example :
    (ending (({ phraseStore with wrap := .bare } : KeyStore).createMaster true) (FaultyWorld.full phraseHome 2 4)).1 =
        .error (.store (.unwritable .noSpace)) ∧
      (ending (({ phraseStore with wrap := .bare } : KeyStore).createMaster true) (FaultyWorld.full phraseHome 2 4)).2.world.files.stat
          ["work"] "keys/master.key" = .ok (.file (Bytes.ofText "AAAA") privateMode) := by decide +kernel

/-- A store whose directory is reached through the place of its key file. -/
def throughStore : KeyStore := ⟨"keys/master.key/..", .bare, openCipher⟩

/-- A world without files. -/
def emptyHome : World := { sampleHome with files := ⟨[(["work"], .directory 0o755)]⟩ }

/-- There the key cannot be made, but from then on a directory stands in the place of the key file, where nothing was. -/
theorem createMaster_keeps_through :
    (outcome throughStore.hasMaster emptyHome).1 = .ok false ∧
      (outcome (throughStore.createMaster true) emptyHome).1 = .error (.store (.unwritable .isDirectory)) ∧
      (outcome throughStore.hasMaster (outcome (throughStore.createMaster true) emptyHome).2).1 = .ok true := by
  refine ⟨by rfl, ?_, ?_⟩
  · decide +kernel
  · decide +kernel

end

end KeyStore

end SealedConfig
