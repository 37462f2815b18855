import SealedConfig.Proofs.Bulk.Secrets
import SealedConfig.Proofs.Bulk.Sidecars
import SealedConfig.Proofs.Document.Alike
import SealedConfig.Proofs.SideBySide

/-!
# Updates side by side

The steps of an update go side by side over documents with alike trees: copies are made under the same names, the same secret is the
first that does not open, and the files are replaced or not, whatever is written to them. So whole updates fail alike.
-/

namespace SealedConfig

open Outcome (FailAlike Parallel)
open Run
open Scan (FieldsAlike)

/-- In worlds in which documents stand, these are loaded. -/
theorem Document.StandsAt.sideBySideIn_load {doc twin : Document} {path : String} {mode bits : Nat} {w other : World}
    (hdoc : doc.StandsAt w.files w.here path mode) (htwin : twin.StandsAt other.files other.here path bits)
    (h : w.SameOutline other) :
    SideBySideIn w other (fun loaded again => loaded = doc ∧ again = twin) (Document.load path) (Document.load path) where
  results := by
    rw [load_eq_ok_iff.mpr ⟨mode, hdoc⟩, load_eq_ok_iff.mpr ⟨bits, htwin⟩]
    exact .ok ⟨rfl, rfl⟩
  worlds := h.agrees (quiet_load path w) (quiet_load path other)

namespace Bulk

variable {p : Protector} {operation : Operation} {cancelAfter : Option Nat} {doc twin : Document} {path : String}

/-! ## The steps -/

/-- Sealing goes alike whatever the text. -/
theorem sideBySide_enclose (p : Protector) (plain text : String) :
    SideBySide (fun _ _ => True) (Run.enclose p plain) (Run.enclose p text) := by
  intro w other hworlds
  obtain ⟨_, after, heq, hafter⟩ := outcome_enclose p plain w
  obtain ⟨_, last, heq', hlast⟩ := outcome_enclose p text other
  exact .of_outcomes heq heq' (.ok trivial) (hworlds.agrees hafter hlast)

/-- A copy is made under the same name, or none is made for the same reason, whatever is copied. -/
theorem sideBySide_backupFrom (path stamp : String) (content bytes : Bytes) (mode room attempt : Nat) :
    SideBySide Eq (backupFrom path stamp content mode room attempt) (backupFrom path stamp bytes mode room attempt) := by
  induction room generalizing attempt with
  | zero => exact sideBySide_fail _
  | succ room ih =>
    intro w other hworlds
    have hrun := outcome_backupFrom path stamp content mode room attempt w
    have hrun' := outcome_backupFrom path stamp bytes mode room attempt other
    rw [hworlds.here] at hrun'
    rcases (hworlds.files.createNew w.here (backupPath path stamp attempt) content bytes mode).cases with
      ⟨fault, hfail, hfail'⟩ | ⟨copied, twin, hcopied, htwin, hfiles⟩
    · rw [hfail] at hrun
      rw [hfail'] at hrun'
      cases fault with
      | alreadyExists =>
        have hrest := ih (attempt + 1) w other hworlds
        exact .of_outcomes hrun hrun' hrest.results hrest.worlds
      | _ => exact .of_outcomes hrun hrun' (.error _) hworlds
    · rw [hcopied] at hrun
      rw [htwin] at hrun'
      exact .of_outcomes hrun hrun' (.ok rfl) ⟨hfiles, rfl, hworlds.now⟩

/-- A document is copied under the same name, or it is not for the same reason. -/
theorem sideBySide_backup (path stamp : String) : SideBySide Eq (backup path stamp) (backup path stamp) := by
  have hread : SideBySide (fun _ _ => True) (attempt (noBackup path) (Host.read path)) (attempt (noBackup path) (Host.read path)) :=
    sideBySide_attempt _ fun w other hworlds => ⟨hworlds.read path, hworlds⟩
  have hmode : SideBySide Eq (attempt (noBackup path) (Host.modeOf path)) (attempt (noBackup path) (Host.modeOf path)) :=
    sideBySide_attempt _ fun w other hworlds => ⟨hworlds.modeOf path, hworlds⟩
  refine hread.bind fun content bytes _ => hmode.bind fun mode bits hbits => ?_
  subst hbits
  exact sideBySide_backupFrom path stamp content bytes mode backupLimit 0

/-- A secret of which the text is alike is rewritten or fails to be, for the same reason. -/
theorem sideBySide_transform {field other : SecretField} (h : FieldsAlike p field other) :
    SideBySide (fun _ _ => True) (transform p operation field) (transform p operation other) := by
  cases operation with
  | encrypt => exact sideBySide_enclose p field.value other.value
  | decrypt =>
    rw [transform, transform, h.path]
    exact sideBySide_settle _ h.value.opens.parallel

theorem sideBySide_checkCancelled (cancelAfter : Option Nat) (path : String) (done total : Nat) :
    SideBySide Eq (checkCancelled cancelAfter path done total) (checkCancelled cancelAfter path done total) := by
  rw [checkCancelled]
  split
  · exact .of_tells (tells_warn _ _) (tells_warn _ _) (sideBySide_fail _)
  · exact sideBySide_pure rfl

/-- Edits are at paths, one after the other. -/
def AreAt (paths : List KeyPath) (edits twins : List Edit) : Prop := edits.map Prod.fst = paths ∧ twins.map Prod.fst = paths

/-- Rewriting secrets stops at the same one for the same reason, or gives edits at the same paths. -/
theorem sideBySide_editsFrom {fields others : List SecretField} (h : List.Forall₂ (FieldsAlike p) fields others) (total done : Nat) :
    SideBySide (AreAt (fields.map SecretField.path)) (editsFrom p operation cancelAfter path total done fields)
      (editsFrom p operation cancelAfter path total done others) := by
  induction h generalizing done with
  | nil => exact (sideBySide_checkCancelled cancelAfter path done total).bind fun _ _ _ => sideBySide_pure ⟨rfl, rfl⟩
  | @cons field other fields others hfield _ ih =>
    refine (sideBySide_checkCancelled cancelAfter path done total).bind fun _ _ _ => ?_
    refine (sideBySide_transform hfield).bind fun value text _ => ?_
    refine .of_tells (tells_debug _ _) (tells_debug _ _) ?_
    refine (ih (done + 1)).bind fun edits twins hrest => sideBySide_pure ?_
    obtain ⟨hedits, htwins⟩ := hrest
    constructor
    · rw [List.map_cons, List.map_cons, hedits]
    · rw [List.map_cons, List.map_cons, htwins, hfield.path]

/-- Edits at the paths of the secrets of a document succeed. -/
theorem exists_replaceStrings {edits : List Edit}
    (h : edits.map Prod.fst = (operation.targets (Scan.ofDocument doc)).map SecretField.path) :
    ∃ edited, doc.replaceStrings edits = .ok edited := by
  obtain ⟨sp, hr, ht⟩ := doc.exists_spelling
  have hnodup : (edits.map Prod.fst).Nodup := h ▸ nodup_targets doc.hasDistinctKeys operation
  have htexts : ∀ edit ∈ edits, (doc.tree.textAt? edit.1).isSome := by
    intro edit hedit
    obtain ⟨field, hf, hpath⟩ := List.mem_map.mp (h ▸ List.mem_map_of_mem hedit)
    rw [← hpath, (of_mem_targets doc.hasDistinctKeys operation hf).1]
    rfl
  obtain ⟨edited, hok, -⟩ := Document.replaceStrings_eq_ok hr ht hnodup htexts
  exact ⟨edited, hok⟩

/-- A document is written or not, for the same reason, whatever is written. -/
theorem sideBySide_write (path content text : String) : SideBySide (fun _ _ => True) (write path content) (write path text) := by
  have hreplace : SideBySide (fun _ _ => True)
      (attempt (fun fault => .bulk (.unwritable path fault)) (Host.replace path (Bytes.ofText content)))
      (attempt (fun fault => .bulk (.unwritable path fault)) (Host.replace path (Bytes.ofText text))) := by
    refine sideBySide_attempt _ fun w other hworlds => ?_
    have hfiles : Parallel FileTree.SameOutline (w.files.replace w.here path (Bytes.ofText content))
        (other.files.replace other.here path (Bytes.ofText text)) := by
      rw [hworlds.here]
      exact hworlds.files.replace w.here path _ _
    rw [Host.replace_eq, Host.replace_eq]
    exact hworlds.withFiles hfiles
  exact hreplace.bind fun _ _ _ => (sideBySide_tells (tells_debug _ _) (tells_debug _ _)).mono fun _ _ _ => trivial

/-! ## The update -/

/-- Rewriting the secrets of documents with alike trees fails alike. -/
theorem sideBySide_rewriteTargets (h : doc.tree.Alike p twin.tree) (copy : String) :
    SideBySide (fun _ _ => True)
      (rewriteTargets p operation cancelAfter doc path (operation.targets (Scan.ofDocument doc)) copy)
      (rewriteTargets p operation cancelAfter twin path (operation.targets (Scan.ofDocument twin)) copy) := by
  have htargets := Scan.alike_targets h operation
  have hpaths := Scan.paths_of_alike htargets
  rw [rewriteTargets, rewriteTargets, ← htargets.length_eq]
  refine (sideBySide_editsFrom htargets _ 0).bind fun edits twins hedited => ?_
  obtain ⟨hedits, htwins⟩ := hedited
  obtain ⟨edited, hedited⟩ := exists_replaceStrings hedits
  obtain ⟨other, hother⟩ := exists_replaceStrings (htwins.trans hpaths.symm)
  have hreplaced : Parallel (fun _ _ => True) (doc.replaceStrings edits) (twin.replaceStrings twins) := by
    rw [hedited, hother]
    exact .ok trivial
  refine (sideBySide_settle _ hreplaced).bind fun edited other _ => ?_
  refine .of_tells (tells_debug _ _) (tells_debug _ _) ?_
  refine (sideBySide_write path edited.raw other.raw).bind fun _ _ _ => ?_
  refine .of_tells (tells_announce _ _ _) (tells_announce _ _ _) ?_
  exact sideBySide_pure trivial

/-- Updating the secrets of documents with alike trees fails alike. -/
theorem sideBySide_updateTargets (h : doc.tree.Alike p twin.tree) :
    SideBySide (fun _ _ => True)
      (updateTargets p operation cancelAfter doc path (operation.targets (Scan.ofDocument doc)))
      (updateTargets p operation cancelAfter twin path (operation.targets (Scan.ofDocument twin))) := by
  refine sideBySide_now.bind fun moment _ hmoment => ?_
  subst hmoment
  refine (sideBySide_backup path moment.stamp).bind fun copy _ hcopy => ?_
  subst hcopy
  exact .of_tells (tells_inform _ _) (tells_inform _ _) (sideBySide_rewriteTargets h copy)

/-- The lock of a document is had in both worlds or in neither, for the same reason; what runs under it finds worlds with the same
outline. -/
theorem sideBySideIn_underLock {α β : Type} {R : α → β → Prop} {x : Run (StateM World) α} {y : Run (StateM World) β}
    {w other : World} (hworlds : w.SameOutline other)
    (h : ∀ {locked held start begun}, w.files.touch w.here (lockPath path) = .ok locked →
      other.files.touch other.here (lockPath path) = .ok held → w.Changes locked start → other.Changes held begun →
        start.SameOutline begun → SideBySideIn start begun R x y) :
    SideBySideIn w other R (underLock path x) (underLock path y) := by
  have htouch : Parallel FileTree.SameOutline (w.files.touch w.here (lockPath path))
      (other.files.touch other.here (lockPath path)) := by
    rw [hworlds.here]
    exact hworlds.files.touch w.here (lockPath path)
  have hrun := outcome_underLock path x w
  have hrun' := outcome_underLock path y other
  rcases htouch.cases with ⟨fault, hfail, hfail'⟩ | ⟨locked, held, hlock, hheld, hfiles⟩
  · rw [hfail] at hrun
    rw [hfail'] at hrun'
    exact .of_outcomes hrun hrun' (.error _) hworlds
  · rw [hlock] at hrun
    rw [hheld] at hrun'
    have hlocked : World.SameOutline { w with files := locked } { other with files := held } := ⟨hfiles, hworlds.here, hworlds.now⟩
    have hbegun (v : World) : v.Agrees (v.tell (lockEvent path "lock acquired")) := World.agrees_tell v _
    have hrest := h hlock hheld ((World.Changes.set w locked).trans (hbegun _)) ((World.Changes.set other held).trans (hbegun _))
      (hlocked.agrees (hbegun _) (hbegun _))
    exact .of_outcomes hrun hrun' hrest.results (hrest.worlds.agrees (World.agrees_tell _ _) (World.agrees_tell _ _))

/-- Updates of documents with alike trees fail alike when their locks are held. -/
theorem sideBySideIn_updateLocked {w other : World} {mode bits : Nat} (hworlds : w.SameOutline other)
    (hdoc : doc.StandsAt w.files w.here path mode) (htwin : twin.StandsAt other.files other.here path bits)
    (h : doc.tree.Alike p twin.tree) (confirmed : Bool) :
    SideBySideIn w other (fun _ _ => True) (updateLocked p operation confirmed cancelAfter path)
      (updateLocked p operation confirmed cancelAfter path) := by
  refine (hdoc.sideBySideIn_load htwin hworlds).bind fun loaded again hloaded => ?_
  obtain ⟨rfl, rfl⟩ := hloaded
  have hlength := (Scan.alike_targets h operation).length_eq
  have hempty : (operation.targets (Scan.ofDocument again)).isEmpty = (operation.targets (Scan.ofDocument loaded)).isEmpty := by
    rw [Bool.eq_iff_iff, List.isEmpty_iff, List.isEmpty_iff, ← List.length_eq_zero_iff, ← List.length_eq_zero_iff, hlength]
  dsimp only
  rw [hempty, hlength]
  split
  · exact .of_tells (tells_debug _ _) (tells_debug _ _) (sideBySide_pure trivial)
  · split
    · exact sideBySide_fail _
    · exact sideBySide_updateTargets h

/-- Updates of documents with alike trees fail alike. -/
theorem sideBySideIn_update {w other : World} {mode bits : Nat} (hworlds : w.SameOutline other)
    (hdoc : doc.StandsAt w.files w.here path mode) (htwin : twin.StandsAt other.files other.here path bits)
    (h : doc.tree.Alike p twin.tree) (confirmed : Bool) :
    SideBySideIn w other (fun _ _ => True) (update p operation confirmed cancelAfter path)
      (update p operation confirmed cancelAfter path) := by
  refine sideBySideIn_underLock hworlds fun hlock hheld hstart hbegun hlocked => ?_
  exact sideBySideIn_updateLocked hlocked ((standsAt_locked_iff hlock hstart).mpr hdoc)
    ((standsAt_locked_iff hheld hbegun).mpr htwin) h confirmed

end Bulk

end SealedConfig
