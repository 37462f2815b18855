import SealedConfig.Proofs.Host.Mishaps
import SealedConfig.Proofs.KeyStore.Creating

/-!
# Making a master key on a faulty device

A mishap that strikes before the key file is opened leaves no more than directories. From then on it leaves the first part of the new
text in the key file, and what stood there is gone: a key that was to be replaced, which only force does, or nothing.
-/

namespace SealedConfig

open Run FileTree

variable {w : World} {failure : Failure} {left : FaultyWorld}

/-- What a mishap leaves that strikes the reading of a file. -/
def ReadStruck (w : World) (_ : Failure) (left : FaultyWorld) : Prop := left.world = w

namespace KeyWrap

theorem follows_readPassphrase (name : String) :
    FollowsAlways (readPassphrase (m := StateM FaultyWorld) name) (readPassphrase (m := StateM World) name) := by
  have hvalue : FollowsAlways (step (Host.nonEmptyEnv? name) : Run (StateM FaultyWorld) (Option String))
      (step (Host.nonEmptyEnv? name)) := fun faulty => Or.inl ⟨faulty.taken, rfl⟩
  refine hvalue.bindAlways fun found => ?_
  cases found with
  | some text => exact follows_pure text
  | none => exact follows_fail _

theorem follows_readIdentity (path : String) :
    Follows ReadStruck (readIdentity (m := StateM FaultyWorld) path) (readIdentity (m := StateM World) path) := by
  refine ((follows_attempt _ (Host.follows_readText path)).bindAlways fun text => ?_).mono ?_
  · cases Age.Identity.ofText? text with
    | some found => exact follows_pure found
    | none => exact follows_fail _
  · rintro w failure left ⟨fault, -, mishap, -, -, hleft⟩
    exact hleft

/-- What a key is wrapped for is struck when an identity is read. -/
theorem follows_fileKey (wrap : KeyWrap) :
    Follows ReadStruck (wrap.fileKey : Run (StateM FaultyWorld) (Option FileKey)) wrap.fileKey := by
  cases wrap with
  | bare => exact (follows_pure none).mono
  | passphrase name => exact FollowsAlways.mono ((follows_readPassphrase name).bindAlways fun text => follows_pure _)
  | identity path => exact (follows_readIdentity path).bindAlways fun found => follows_pure _

end KeyWrap

namespace KeyStore

theorem follows_wrapped (store : KeyStore) (key : MasterKey) :
    Follows ReadStruck (store.wrapped key : Run (StateM FaultyWorld) String) (store.wrapped key) := by
  refine store.wrap.follows_fileKey.bindAlways fun fileKey => ?_
  cases fileKey with
  | none => exact follows_pure _
  | some fileKey => exact (follows_random _).bindAlways fun random => follows_pure _

/-- The key file holds the first part of a text that is wrapped for what the store wraps for, behind new directories. -/
def CutShort (store : KeyStore) (w : World) (after : FileTree) : Prop :=
  ∃ key text fileKey grown, (outcome store.wrap.fileKey w).1 = .ok fileKey ∧ IsWrapped store.cipher key text fileKey ∧
    w.files.GainsDirectories (store.MayHold w.here) grown ∧ grown.WritesPart w.here store.keyPath (Bytes.ofText text) after

/-- What a mishap leaves of making a key: no more than new directories, or a key file that is cut short. -/
def MakeStruck (store : KeyStore) (w : World) (failure : Failure) (left : FaultyWorld) : Prop :=
  w.files.GainsDirectories (store.MayHold w.here) left.world.files ∨
    ∃ mishap, left.JustMet mishap ∧ failure = .store (.unwritable mishap.fault) ∧ store.CutShort w left.world.files

/-- What a mishap leaves is the same seen from a world that looks like the one where the making begins. -/
theorem MakeStruck.of_looksLike {store : KeyStore} {told : World} (h : store.MakeStruck told failure left) (hw : w.LooksLike told) :
    store.MakeStruck w failure left := by
  unfold MakeStruck CutShort at h ⊢
  rwa [hw.files, hw.here, (reads_fileKey store.wrap).outcome_eq hw] at h

theorem follows_makeMaster (store : KeyStore) :
    Follows store.MakeStruck (store.makeMaster : Run (StateM FaultyWorld) MasterKey) store.makeMaster := by
  refine ((follows_random 32).bind fun bytes => (store.follows_wrapped ⟨bytes⟩).bind fun text =>
    (follows_attempt _ (Host.follows_createDirectories store.dir)).bind fun _ =>
      (follows_attempt _ (Host.follows_writePrivate store.keyPath (Bytes.ofText text))).bindAlways fun _ =>
        (follows_debug _ _).bindAlways fun _ => follows_pure _).mono ?_
  rintro w failure left ⟨bytes, drawn, hdraw, hread | ⟨text, wrapped, htext, hrest⟩⟩
  · obtain ⟨-, rfl⟩ := Prod.mk.inj hdraw
    refine Or.inl ?_
    rw [show left.world = _ from hread]
    exact .refl _ _
  obtain ⟨-, rfl⟩ := Prod.mk.inj hdraw
  have hdrawn : w.Undisturbed { w with drawn := w.drawn + 32 } := ⟨⟨rfl, rfl, rfl, rfl⟩, rfl, rfl, rfl⟩
  obtain ⟨hundisturbed, hwrapped⟩ := wrapped_cases htext
  obtain ⟨fileKey, hkey, hwrap⟩ := hwrapped text rfl
  have hbefore : w.LooksLike wrapped := (hdrawn.trans hundisturbed).toLooksLike
  rcases hrest with ⟨_, rfl, mishap, made, -, -, hleft, hgains⟩ | ⟨_, grown, hmade, _, rfl, mishap, hmet, rfl, hwritten⟩
  · refine Or.inl ?_
    rw [hleft, ← hbefore.files, ← hbefore.here]
    exact hgains
  have hgains := gains_of_createDirectories hmade
  have hgrown := grown_of_createDirectories hmade
  rw [hbefore.files, hbefore.here] at hgains
  rcases hwritten with hleft | ⟨files, hpart, hleft⟩
  · refine Or.inl ?_
    rw [hleft]
    exact hgains
  · rw [hgrown.here, hbefore.here] at hpart
    refine Or.inr ⟨mishap, hmet, rfl, ⟨_⟩, text, fileKey, grown.files, ?_, hwrap, hgains, ?_⟩
    · exact ((reads_fileKey store.wrap).outcome_eq hdrawn.toLooksLike).symm.trans hkey
    · rw [hleft]
      exact hpart

/-- A mishap strikes the making of a key only where it is forced, or no key is found. -/
theorem follows_createMaster (store : KeyStore) (force : Bool) :
    Follows (fun w failure left => store.MakeStruck w failure left ∧
        (force = true ∨ ∀ node, w.files.stat w.here store.keyPath ≠ .ok node))
      (store.createMaster force : Run (StateM FaultyWorld) MasterKey) (store.createMaster force) := by
  rw [createMaster_eq, createMaster_eq]
  refine ((follows_pathExists store.keyPath).bind
    (T := fun found w failure left => ¬(found && !force) = true ∧ store.MakeStruck w failure left) fun found => ?_).mono ?_
  · split
    · exact (follows_fail _).mono
    rename_i hallowed
    split
    · refine ((follows_warn _ _).bind fun _ => store.follows_makeMaster).mono ?_
      rintro w failure left ⟨_, told, htold, hstruck⟩
      obtain ⟨-, rfl⟩ := Prod.mk.inj htold
      exact ⟨hallowed, hstruck.of_looksLike (World.undisturbed_tell _ _).toLooksLike⟩
    · exact store.follows_makeMaster.mono fun w failure left hstruck => ⟨hallowed, hstruck⟩
  · rintro w failure left ⟨found, looked, hfound, hallowed, hstruck⟩
    have hexists : outcome (pathExists store.keyPath) w = (.ok (w.stat? store.keyPath).isSome, w) := rfl
    obtain ⟨hsome, rfl⟩ := Prod.mk.inj (hexists.symm.trans hfound)
    obtain rfl := Except.ok.inj hsome
    refine ⟨hstruck, ?_⟩
    cases force with
    | true => exact Or.inl rfl
    | false =>
      refine Or.inr fun node hnode => hallowed ?_
      rw [World.stat?, hnode]
      rfl

end KeyStore

end SealedConfig
