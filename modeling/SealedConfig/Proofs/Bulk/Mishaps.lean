import SealedConfig.Proofs.Bulk.Encrypting
import SealedConfig.Proofs.Bulk.Frame
import SealedConfig.Proofs.Host.Mishaps

/-!
# What an update leaves on a faulty device

A mishap may strike any step of an update: under the lock, while the copy is made, or while the document is written. The document and
every other file are as they were all the same. What an update cannot take back is a copy that was cut short, and, if a second mishap
keeps it from being removed, the temporary file of the document.
-/

namespace SealedConfig

open Run

/-! ## Loading -/

/-- Loading a document is struck when its file is read, which changes no file. -/
theorem follows_load (path : String) :
    Follows (fun w _ left => w.Agrees left.world) (Document.load (m := StateM FaultyWorld) path)
      (Document.load (m := StateM World) path) := by
  have hfound (found : Bool) : Follows (fun w _ left => left.world = w)
      (if found then do
        let raw ← attempt (fun fault => .document (.unreadable path fault)) (Host.readText path)
        settle .document (Document.read (some path) raw)
      else fail (.document (.missing path)) : Run (StateM FaultyWorld) Document)
      (if found then do
        let raw ← attempt (fun fault => .document (.unreadable path fault)) (Host.readText path)
        settle .document (Document.read (some path) raw)
      else fail (.document (.missing path))) := by
    cases found with
    | true =>
      refine ((follows_attempt _ (Host.follows_readText path)).bindAlways fun raw => follows_settle _ _).mono ?_
      rintro w failure left ⟨fault, -, mishap, -, -, hleft⟩
      exact hleft
    | false => exact (follows_fail _).mono
  refine ((follows_debug _ _).bind fun _ => (follows_pathExists path).bind hfound).mono ?_
  rintro w failure left ⟨_, told, htold, found, looked, hlooked, hleft⟩
  obtain ⟨-, rfl⟩ := Prod.mk.inj htold
  obtain ⟨-, rfl⟩ := Prod.mk.inj hlooked
  rw [hleft]
  exact w.agrees_tell _

namespace Bulk

open FileTree

variable {p : Protector} {operation : Operation} {confirmed : Bool} {cancelAfter : Option Nat} {doc : Document} {path : String}
  {targets : List SecretField} {w start : World}

/-! ## Copying -/

/-- What a mishap leaves of trying for a copy from an attempt on: all as it was, or the first part of the content under a free name
that was tried, with the bits of any new file. -/
def CopyStruck (path stamp : String) (content : Bytes) (limit : Nat) (w : World) (failure : Failure) (left : FaultyWorld) : Prop :=
  ∃ mishap, left.JustMet mishap ∧ failure = noBackup path mishap.fault ∧
    (left.world = w ∨ ∃ attempt written cut, attempt < limit ∧
      w.files.createNew w.here (backupPath path stamp attempt) (content.take written) plainMode = .ok cut ∧
      left.world = { w with files := cut })

/-- A copy whose new file is filled in part is cut short. -/
theorem copyStruck_of_openNew {stamp : String} {content : Bytes} {attempt limit : Nat} {opened : Location × FileTree}
    {fault : FileFault} {left : FaultyWorld} (hattempt : attempt < limit)
    (hopen : w.files.openNew w.here (backupPath path stamp attempt) = .ok opened)
    (h : Host.FillStruck opened.1 content { w with files := opened.2 } fault left) :
    CopyStruck path stamp content limit w (noBackup path fault) left := by
  obtain ⟨mishap, written, hmet, rfl, hleft⟩ := h
  rcases w.files.openNew_cases w.here (backupPath path stamp attempt) (content.take written) plainMode with
    ⟨_, hnone, -⟩ | ⟨location, hfree, hsome, hcut⟩
  · rw [hnone] at hopen
    cases hopen
  · obtain rfl := Except.ok.inj (hopen.symm.trans hsome)
    refine ⟨mishap, hmet, rfl, Or.inr ⟨attempt, written, _, hattempt, hcut, hleft.trans ?_⟩⟩
    exact congrArg (fun files => { w with files := files }) (append_set (ne_nil_of_get?_none hfree) [] _ _)

/-- A mishap while a copy is tried for strikes the making of a file or its filling, and what is tried next is struck in the same way. -/
theorem follows_backupFrom (path stamp : String) (content : Bytes) (mode room attempt : Nat) :
    Follows (CopyStruck path stamp content (attempt + room)) (backupFrom (m := StateM FaultyWorld) path stamp content mode room attempt)
      (backupFrom (m := StateM World) path stamp content mode room attempt) := by
  induction room generalizing attempt with
  | zero => exact (follows_fail _).mono
  | succ room ih =>
    have hlimit : attempt + 1 + room = attempt + (room + 1) := by omega
    have hnext := ih (attempt + 1)
    rw [hlimit] at hnext
    refine (follows_taking (T := fun opened => match opened with
      | .ok file => fun w failure left => ∃ fault, failure = noBackup path fault ∧ Host.FillStruck file content w fault left
      | .error _ => CopyStruck path stamp content (attempt + (room + 1)))
      (follows_wholly (Host.createNew (backupPath path stamp attempt))) (fun opened => ?_) (noBackup path) ?_).mono ?_
    · cases opened with
      | ok file => exact (follows_attempt _ (Host.follows_fill file content mode)).bindAlways fun _ => follows_pure _
      | error fault =>
        cases fault with
        | alreadyExists => exact hnext
        | _ => exact (follows_fail _).mono
    · rintro w fault left ⟨mishap, -, rfl, -⟩
      have hne : mishap.fault ≠ .alreadyExists := mishap.fault_ne rfl
      cases hfault : mishap.fault with
      | alreadyExists => exact absurd hfault hne
      | _ => rfl
    rintro w failure left (⟨fault, rfl, mishap, hmet, rfl, hleft⟩ | hstruck)
    · exact ⟨mishap, hmet, rfl, Or.inl hleft⟩
    have hopened : Host.createNew (m := StateM World) (backupPath path stamp attempt) w =
        w.withOpened (w.files.openNew w.here (backupPath path stamp attempt)) := rfl
    rw [hopened] at hstruck
    cases hopen : w.files.openNew w.here (backupPath path stamp attempt) with
    | error fault =>
      rw [hopen] at hstruck
      exact hstruck
    | ok opened =>
      rw [hopen] at hstruck
      obtain ⟨fault, rfl, hfill⟩ := hstruck
      exact copyStruck_of_openNew (by omega) hopen hfill

/-- What a mishap leaves of copying a document: all as it was, or a copy that is cut short. -/
def BackupStruck (path stamp : String) (w : World) (failure : Failure) (left : FaultyWorld) : Prop :=
  (∃ mishap, left.JustMet mishap ∧ failure = noBackup path mishap.fault ∧ left.world = w) ∨
    ∃ content mode, w.files.stat w.here path = .ok (.file content mode) ∧ CopyStruck path stamp content backupLimit w failure left

theorem follows_backup (path stamp : String) :
    Follows (BackupStruck path stamp) (backup (m := StateM FaultyWorld) path stamp) (backup (m := StateM World) path stamp) := by
  refine ((follows_attempt _ (follows_wholly _)).bind fun content => (follows_attempt _ (follows_wholly _)).bind fun mode =>
    follows_backupFrom path stamp content mode backupLimit 0).mono ?_
  rintro w failure left (⟨fault, rfl, mishap, hmet, rfl, hleft⟩ | ⟨content, looked, hread, ⟨fault, rfl, mishap, hmet, rfl, hleft⟩ |
    ⟨mode, stated, hmode, hstruck⟩⟩)
  · exact Or.inl ⟨mishap, hmet, rfl, hleft⟩
  · obtain ⟨-, rfl⟩ := Prod.mk.inj hread
    exact Or.inl ⟨mishap, hmet, rfl, hleft⟩
  · obtain ⟨hcontent, rfl⟩ := Prod.mk.inj hread
    obtain ⟨-, rfl⟩ := Prod.mk.inj hmode
    obtain ⟨bits, hfile⟩ := read_eq_ok_iff.mp (Outcome.mapError_eq_ok_iff.mp hcontent)
    rw [Nat.zero_add] at hstruck
    exact Or.inr ⟨content, bits, hfile, hstruck⟩

/-! ## Rewriting -/

theorem follows_transform (p : Protector) (operation : Operation) (field : SecretField) :
    FollowsAlways (transform (m := StateM FaultyWorld) p operation field) (transform (m := StateM World) p operation field) := by
  cases operation with
  | encrypt =>
    rw [transform, transform, Run.enclose, Run.enclose]
    split
    · exact follows_pure _
    · exact (follows_random 12).bindAlways fun _ => follows_pure _
  | decrypt => exact follows_settle _ _

theorem follows_checkCancelled (cancelAfter : Option Nat) (path : String) (done total : Nat) :
    FollowsAlways (checkCancelled (m := StateM FaultyWorld) cancelAfter path done total)
      (checkCancelled (m := StateM World) cancelAfter path done total) := by
  rw [checkCancelled, checkCancelled]
  split
  · exact (follows_warn _ _).bindAlways fun _ => follows_fail _
  · exact follows_pure ()

/-- Rewriting secrets asks for nothing that a mishap can strike. -/
theorem follows_editsFrom (p : Protector) (operation : Operation) (cancelAfter : Option Nat) (path : String) (total done : Nat)
    (fields : List SecretField) :
    FollowsAlways (editsFrom (m := StateM FaultyWorld) p operation cancelAfter path total done fields)
      (editsFrom (m := StateM World) p operation cancelAfter path total done fields) := by
  induction fields generalizing done with
  | nil => exact (follows_checkCancelled _ _ _ _).bindAlways fun _ => follows_pure []
  | cons field fields ih =>
    refine (follows_checkCancelled _ _ _ _).bindAlways fun _ => (follows_transform p operation field).bindAlways fun value => ?_
    exact (follows_debug _ _).bindAlways fun _ => (ih (done + 1)).bindAlways fun edits => follows_pure _

/-! ## Writing -/

/-- What a mishap leaves of writing a document. -/
def WriteStruck (path : String) (content : Bytes) (w : World) (failure : Failure) (left : FaultyWorld) : Prop :=
  ∃ fault, failure = .bulk (.unwritable path fault) ∧ Host.ReplaceStruck path content w fault left

theorem follows_write (path content : String) :
    Follows (WriteStruck path (Bytes.ofText content)) (write (m := StateM FaultyWorld) path content)
      (write (m := StateM World) path content) :=
  (follows_attempt _ (Host.follows_replace path _)).bindAlways fun _ => follows_debug _ _

theorem follows_announce (operation : Operation) (path : String) (total : Nat) :
    FollowsAlways (announce (m := StateM FaultyWorld) operation path total) (announce (m := StateM World) operation path total) := by
  cases operation
  · exact follows_inform _ _
  · exact follows_warn _ _

/-- A run over secrets of which a copy was made is struck when the document is written. -/
theorem follows_rewriteTargets (p : Protector) (operation : Operation) (cancelAfter : Option Nat) (doc : Document) (path : String)
    (targets : List SecretField) (copy : String) :
    Follows (fun w failure left => ∃ content middle, w.Agrees middle ∧ WriteStruck path content middle failure left)
      (rewriteTargets (m := StateM FaultyWorld) p operation cancelAfter doc path targets copy)
      (rewriteTargets (m := StateM World) p operation cancelAfter doc path targets copy) := by
  refine ((follows_editsFrom p operation cancelAfter path _ 0 targets).bind fun edits =>
    (follows_settle .document (doc.replaceStrings edits)).bind fun edited => (follows_debug _ _).bind fun _ =>
      (follows_write path edited.raw).bindAlways fun _ => (follows_announce _ _ _).bindAlways fun _ => follows_pure _).mono ?_
  rintro w failure left ⟨edits, rewritten, hedits, edited, middle, hedited, _, told, htold, hstruck⟩
  obtain ⟨hagree, -⟩ := editsFrom_cases p operation cancelAfter path _ 0 targets hedits
  rw [ending_eq_outcome, outcome_settle] at hedited
  obtain ⟨-, rfl⟩ := Prod.mk.inj hedited
  obtain ⟨-, rfl⟩ := Prod.mk.inj htold
  exact ⟨_, _, hagree.trans (World.agrees_tell _ _), hstruck⟩

/-- What a mishap leaves of a run over the secrets of a document: it strikes the copying, or the writing behind it. -/
def TargetsStruck (path : String) (w : World) (failure : Failure) (left : FaultyWorld) : Prop :=
  (∃ moment, w.now = some moment ∧ BackupStruck path moment.stamp w failure left) ∨
    ∃ copy copied middle content, Copies w path copy copied ∧ w.Changes copied middle ∧ WriteStruck path content middle failure left

theorem follows_updateTargets (p : Protector) (operation : Operation) (cancelAfter : Option Nat) (doc : Document) (path : String)
    (targets : List SecretField) :
    Follows (TargetsStruck path) (updateTargets (m := StateM FaultyWorld) p operation cancelAfter doc path targets)
      (updateTargets (m := StateM World) p operation cancelAfter doc path targets) := by
  refine (follows_now.bind fun moment => (follows_backup path moment.stamp).bind fun copy => (follows_inform _ _).bind fun _ =>
    follows_rewriteTargets p operation cancelAfter doc path targets copy).mono ?_
  rintro w failure left ⟨moment, clocked, hnow, hbackup | ⟨copy, made, hmade, _, told, htold, content, middle, hmiddle, hstruck⟩⟩
  · obtain ⟨rfl, hclock⟩ := now_ok hnow
    exact Or.inl ⟨moment, hclock, hbackup⟩
  · obtain ⟨rfl, hclock⟩ := now_ok hnow
    rcases backup_cases hclock hmade with ⟨⟨_, hfail⟩, -⟩ | ⟨copy', copied, hok, hcopies, hcopied⟩
    · cases hfail
    obtain rfl := Except.ok.inj hok
    obtain ⟨-, rfl⟩ := Prod.mk.inj htold
    exact Or.inr ⟨copy, copied, middle, content, hcopies, (hcopied.trans (World.agrees_tell _ _)).trans hmiddle, hstruck⟩

/-- An update whose lock is held is struck when it reads the document, or when it goes over its secrets. -/
theorem follows_updateLocked (p : Protector) (operation : Operation) (confirmed : Bool) (cancelAfter : Option Nat) (path : String) :
    Follows (fun w failure left => w.Agrees left.world ∨
        HasWork operation confirmed path w ∧ ∃ start, w.Agrees start ∧ TargetsStruck path start failure left)
      (updateLocked (m := StateM FaultyWorld) p operation confirmed cancelAfter path)
      (updateLocked (m := StateM World) p operation confirmed cancelAfter path) := by
  refine ((follows_load path).bind (T := fun doc w failure left => operation.targets (Scan.ofDocument doc) ≠ [] ∧
    (operation = .decrypt → confirmed = true) ∧ TargetsStruck path w failure left) fun doc => ?_).mono ?_
  · dsimp only
    split
    · exact FollowsAlways.mono ((follows_debug _ _).bindAlways fun _ => follows_pure _)
    rename_i hsome
    split
    · exact (follows_fail _).mono
    rename_i hallowed
    refine (follows_updateTargets p operation cancelAfter doc path _).mono fun w failure left hstruck => ⟨?_, ?_, hstruck⟩
    · exact fun hnil => hsome (List.isEmpty_iff.mpr hnil)
    · rintro rfl
      cases confirmed
      · exact absurd rfl hallowed
      · rfl
  · rintro w failure left (hagree | ⟨doc, start, hload, hsome, hallowed, hstruck⟩)
    · exact Or.inl hagree
    · have hquiet := quiet_load path w
      rw [← ending_eq_outcome, hload] at hquiet
      obtain ⟨mode, hstands⟩ := load_eq_ok_iff.mp (congrArg Prod.fst hload)
      exact Or.inr ⟨⟨doc, mode, hstands, hsome, hallowed⟩, start, hquiet, hstruck⟩

/-! ## Under the lock -/

/-- What a mishap leaves of a run under the lock of a document: it strikes the taking of the lock, or the run. -/
def LockStruck (path : String) (R : World → Failure → FaultyWorld → Prop) (w : World) (failure : Failure) (left : FaultyWorld) : Prop :=
  (left.world = w ∨ ∃ locked, w.files.touch w.here (lockPath path) = .ok locked ∧ left.world = { w with files := locked }) ∨
    ∃ locked start before after, w.files.touch w.here (lockPath path) = .ok locked ∧ w.Changes locked start ∧ R start failure before ∧
      before.world.Agrees after ∧ left = { before with world := after }

/-- A lock is had in two steps: its file is touched, and then locked. -/
theorem withLock_faulty {α : Type} (path : String) (body : StateM FaultyWorld α) (faulty : FaultyWorld) :
    Host.withLock path body faulty =
      match faulty.mishaps faulty.taken with
      | some mishap => (.error mishap.fault, { faulty with taken := faulty.taken + 1 })
      | none =>
        match faulty.world.files.touch faulty.world.here path with
        | .error fault => (.error fault, { faulty with taken := faulty.taken + 1 })
        | .ok locked =>
          match faulty.mishaps (faulty.taken + 1) with
          | some mishap => (.error mishap.fault, ⟨{ faulty.world with files := locked }, faulty.mishaps, faulty.taken + 2⟩)
          | none =>
            let finish := body ⟨{ faulty.world with files := locked }, faulty.mishaps, faulty.taken + 2⟩
            (.ok finish.1, finish.2) := by
  have hrun : Host.withLock path body faulty = ending (do
      ExceptT.mk (FaultyWorld.wholly (FaultyWorld.touch path))
      ExceptT.mk (FaultyWorld.wholly (pure (.ok ())))
      ExceptT.lift body) faulty := rfl
  rw [hrun]
  cases hfirst : faulty.mishaps faulty.taken with
  | some mishap => exact ending_bind_error (ending_wholly_struck hfirst)
  | none =>
    have htouch : ending (ExceptT.mk (FaultyWorld.wholly (FaultyWorld.touch path))) faulty = _ := ending_wholly_calm hfirst
    rw [FaultyWorld.touch] at htouch
    cases hfile : faulty.world.files.touch faulty.world.here path with
    | error fault =>
      rw [hfile] at htouch
      exact ending_bind_error htouch
    | ok locked =>
      rw [hfile] at htouch
      refine (ending_bind_ok htouch).trans ?_
      cases hsecond : faulty.mishaps (faulty.taken + 1) with
      | some mishap => exact ending_bind_error (ending_wholly_struck hsecond)
      | none => exact ending_bind_ok (ending_wholly_calm hsecond)

/-- A run under a lock that is not had fails, and else comes to what it does while the lock is held. -/
theorem ending_underLock_faulty {α : Type} (path : String) (body : Run (StateM FaultyWorld) α) (faulty : FaultyWorld) :
    ending (underLock path body) faulty =
      match Host.withLock (lockPath path) (held path body) faulty with
      | (.error fault, left) => (.error (.bulk (.locked (lockPath path) fault)), left)
      | (.ok result, left) => (result, left) := by
  have hunder : underLock path body =
      attempt (fun fault => .bulk (.locked (lockPath path) fault)) (Host.withLock (lockPath path) (held path body)) >>=
        settle id := rfl
  have hlock : ending (attempt (fun fault => .bulk (.locked (lockPath path) fault))
      (Host.withLock (lockPath path) (held path body))) faulty =
        ((Host.withLock (lockPath path) (held path body) faulty).1.mapError fun fault => .bulk (.locked (lockPath path) fault),
          (Host.withLock (lockPath path) (held path body) faulty).2) := rfl
  rw [hunder, ending_bind, hlock]
  rcases Host.withLock (lockPath path) (held path body) faulty with ⟨fault | failure | value, left⟩ <;> rfl

/-- What runs while a lock is held is struck where its body is. -/
theorem follows_held {α : Type} {R : World → Failure → FaultyWorld → Prop} {body : Run (StateM FaultyWorld) α}
    {calm : Run (StateM World) α} (h : Follows R body calm) (path : String) :
    Follows (fun w failure left => ∃ before, R (w.tell (lockEvent path "lock acquired")) failure before ∧
        left = { before with world := before.world.tell (lockEvent path "lock released") })
      (ExceptT.mk (held path body)) (ExceptT.mk (held path calm)) := by
  intro faulty
  have hheld : ending (ExceptT.mk (held path body)) faulty =
      ((ending body { faulty with world := faulty.world.tell (lockEvent path "lock acquired") }).1,
        { (ending body { faulty with world := faulty.world.tell (lockEvent path "lock acquired") }).2 with
          world := (ending body { faulty with world := faulty.world.tell (lockEvent path "lock acquired") }).2.world.tell
            (lockEvent path "lock released") }) := rfl
  rw [hheld]
  rcases h { faulty with world := faulty.world.tell (lockEvent path "lock acquired") } with
    ⟨taken, hbody⟩ | ⟨failure, before, hbody, hmishaps, hstruck⟩
  · rw [hbody]
    exact Or.inl ⟨taken, rfl⟩
  · rw [hbody]
    exact Or.inr ⟨failure, _, rfl, hmishaps, before, hstruck, rfl⟩

theorem follows_underLock {α : Type} {R : World → Failure → FaultyWorld → Prop} {body : Run (StateM FaultyWorld) α}
    {calm : Run (StateM World) α} (h : Follows R body calm) (path : String) :
    Follows (LockStruck path R) (underLock path body) (underLock path calm) := by
  intro faulty
  rw [ending_underLock_faulty, withLock_faulty, ending_eq_outcome, outcome_underLock]
  cases faulty.mishaps faulty.taken with
  | some mishap => exact Or.inr ⟨_, _, rfl, rfl, Or.inl (Or.inl rfl)⟩
  | none =>
    cases htouch : faulty.world.files.touch faulty.world.here (lockPath path) with
    | error fault => exact Or.inl ⟨faulty.taken + 1, rfl⟩
    | ok locked =>
      dsimp only
      cases faulty.mishaps (faulty.taken + 1) with
      | some mishap => exact Or.inr ⟨_, _, rfl, rfl, Or.inl (Or.inr ⟨locked, htouch, rfl⟩)⟩
      | none =>
        dsimp only
        rcases follows_held h path ⟨{ faulty.world with files := locked }, faulty.mishaps, faulty.taken + 2⟩ with
          ⟨later, hheld⟩ | ⟨failure, left, hheld, hmishaps, before, hstruck, hleft⟩
        · rw [ending, ExceptT.run_mk] at hheld
          rw [hheld]
          exact Or.inl ⟨later, rfl⟩
        · rw [ending, ExceptT.run_mk] at hheld
          rw [hheld]
          exact Or.inr ⟨failure, left, rfl, hmishaps, Or.inr ⟨locked, _, before, _, htouch,
            (World.Changes.set _ locked).trans (World.agrees_tell _ _), hstruck, World.agrees_tell _ _, hleft⟩⟩

/-! ## The whole update -/

/-- The document and every other file are as they were, and a copy under a free name is cut short: it holds the first part of the
document, with the bits of any new file. -/
structure CopyCutShort (path : String) (w : World) (after : FileTree) : Prop where
  target : after.stat w.here path = w.files.stat w.here path
  rest : ∃ copy content mode written, IsBackupName w path copy ∧ w.files.IsFree w.here copy ∧
    w.files.stat w.here path = .ok (.file content mode) ∧
    after.stat w.here copy = .ok (.file (content.take written) plainMode) ∧
    w.files.Gains (Sidecar w.files w.here path copy) after

/-- The document and every other file are as they were, its copy is whole, and a temporary file that nobody else may read is left beside
it. -/
structure TemporaryLeft (path : String) (w : World) (after : FileTree) : Prop where
  target : after.stat w.here path = w.files.stat w.here path
  rest : ∃ copy content mode place number part bits, CopyMade path copy content mode w after ∧
    w.files.resolve w.here path = .ok place ∧
    w.files.get? (place.location.dropLast ++ [temporaryName number]) = none ∧
    after.get? (place.location.dropLast ++ [temporaryName number]) = some (.file part bits) ∧ (bits = privateMode ∨ bits = mode) ∧
    w.files.Gains (fun location => Sidecar w.files w.here path copy location ∨
      location = place.location.dropLast ++ [temporaryName number]) after

/-- What mishaps leave of a failing update that it cannot take back: a copy that is cut short, or, where a second mishap keeps it from
being removed, the temporary file. The failure tells the fault of the first one. -/
def LeavesPart (path : String) (w : World) (failure : Failure) (left : FaultyWorld) : Prop :=
  (∃ mishap, left.JustMet mishap ∧ failure = .bulk (.backupFailed path mishap.fault) ∧ CopyCutShort path w left.world.files) ∨
    ∃ first second, left.JustMetBoth first second ∧ failure = .bulk (.unwritable path first.fault) ∧
      TemporaryLeft path w left.world.files

variable {locked copied : FileTree} {copy : String} {failure : Failure} {left : FaultyWorld}

/-- A copy that is struck is cut short, unless nothing has changed. -/
theorem cutShort_of_backupStruck (hlock : w.files.touch w.here (lockPath path) = .ok locked) (hstart : w.Changes locked start)
    {moment : Moment} (hnow : start.now = some moment) (h : BackupStruck path moment.stamp start failure left) :
    LeftAlone path (HasWork operation confirmed path w) w left.world.files ∨
      ∃ mishap, left.JustMet mishap ∧ failure = noBackup path mishap.fault ∧ CopyCutShort path w left.world.files := by
  have hsame (hleft : left.world = start) : LeftAlone path (HasWork operation confirmed path w) w left.world.files := by
    rw [hleft, hstart.files]
    exact leftAlone_of_touch hlock _
  rcases h with ⟨-, -, -, hleft⟩ | ⟨content, mode, hfile, mishap, hmet, hfailure, hleft | ⟨attempt, written, cut, hattempt, hcut, hleft⟩⟩
  · exact Or.inl (hsame hleft)
  · exact Or.inl (hsame hleft)
  have hname : IsBackupName w path (backupPath path moment.stamp attempt) := ⟨moment, attempt, hstart.now ▸ hnow, hattempt, rfl⟩
  rw [hstart.files, hstart.here] at hcut hfile
  obtain ⟨hgains, htarget, hfree, hcopied⟩ := createNew_locked hlock hname hcut
  refine Or.inr ⟨mishap, hmet, hfailure, ?_⟩
  rw [hleft]
  exact ⟨htarget, _, content, mode, written, hname, hfree, (stat_locked hlock).symm.trans hfile, hcopied, hgains⟩

/-- A document whose writing is struck is as it was, and so is all else, unless the temporary file is left. -/
theorem temporaryLeft_of_writeStruck (hlock : w.files.touch w.here (lockPath path) = .ok locked) (hstart : w.Changes locked start)
    (hcopies : Copies start path copy copied) {middle : World} (hmiddle : start.Changes copied middle) {content : Bytes}
    (hwork : HasWork operation confirmed path w) (h : WriteStruck path content middle failure left) :
    LeftAlone path (HasWork operation confirmed path w) w left.world.files ∨
      ∃ first second, left.JustMetBoth first second ∧ failure = .bulk (.unwritable path first.fault) ∧
        TemporaryLeft path w left.world.files := by
  obtain ⟨_, hfailure, mishap, rfl, hleft | ⟨second, files, hmet, hleaves, hleft⟩⟩ := h
  · rw [hleft, hmiddle.files]
    exact Or.inl (leftAlone_of_copies hlock hstart hcopies hwork)
  obtain ⟨hgains, htarget, old, mode, hname, hfree, hstat, hcopied⟩ := copies_locked hlock hstart hcopies
  obtain ⟨place, number, written, bits, hplace, hnone, hbits, rfl⟩ := hleaves
  rw [hmiddle.files, hmiddle.here, hstart.here] at hplace hbits
  rw [hmiddle.files] at hnone hleft
  have htemporary : copied.Gains (· = place.location.dropLast ++ [temporaryName number])
      (copied.set (place.location.dropLast ++ [temporaryName number]) (.file (content.take written) bits)) := gains_set hnone rfl
  have hmode : bits = privateMode ∨ bits = mode := by
    refine hbits.imp_right fun ⟨_, hfile⟩ => ?_
    obtain ⟨-, rfl⟩ := FileNode.file.inj (Except.ok.inj (hfile.symm.trans (htarget.trans hstat)))
    rfl
  rw [hleft]
  refine Or.inr ⟨mishap, second, hmet, hfailure, (htemporary.stat_eq_file (htarget.trans hstat)).trans hstat.symm, copy, old, mode, place,
    number, content.take written, bits, ⟨hname, hfree, hstat, htemporary.stat_eq_file hcopied⟩, hgains.resolve_iff.mp hplace,
    hgains.get?_eq_none hnone, get?_set_self _ (by simp) _, hmode, ?_⟩
  exact (hgains.mono fun _ => Or.inl).trans (htemporary.mono fun _ => Or.inr)

/-- What a failing update leaves that is struck under its lock. -/
theorem frame_of_targetsStruck (hlock : w.files.touch w.here (lockPath path) = .ok locked) (hstart : w.Changes locked start)
    (hwork : HasWork operation confirmed path w) (h : TargetsStruck path start failure left) :
    LeftAlone path (HasWork operation confirmed path w) w left.world.files ∨ LeavesPart path w failure left := by
  rcases h with ⟨moment, hnow, hbackup⟩ | ⟨copy, copied, middle, content, hcopies, hmiddle, hwrite⟩
  · exact (cutShort_of_backupStruck hlock hstart hnow hbackup).imp_right Or.inl
  · exact (temporaryLeft_of_writeStruck hlock hstart hcopies hmiddle hwork hwrite).imp_right Or.inr

/-- What a failing update leaves that is struck. -/
theorem frame_of_lockStruck
    (h : LockStruck path (fun start failure before => start.Agrees before.world ∨ HasWork operation confirmed path start ∧
      ∃ begun, start.Agrees begun ∧ TargetsStruck path begun failure before) w failure left) :
    LeftAlone path (HasWork operation confirmed path w) w left.world.files ∨
      HasWork operation confirmed path w ∧ LeavesPart path w failure left := by
  rcases h with (hleft | ⟨locked, htouch, hleft⟩) | ⟨locked, start, before, after, htouch, hstart, hstruck, hafter, rfl⟩
  · rw [hleft]
    exact Or.inl ⟨rfl, Or.inl (.refl _ _)⟩
  · rw [hleft]
    exact Or.inl (leftAlone_of_touch htouch _)
  rcases hstruck with hquiet | ⟨⟨doc, mode, hdoc, hsome, hallowed⟩, begun, hbegun, hstruck⟩
  · dsimp only
    rw [hafter.files, hquiet.files, hstart.files]
    exact Or.inl (leftAlone_of_touch htouch _)
  · have hwork : HasWork operation confirmed path w :=
      ⟨doc, mode, (standsAt_locked_iff htouch hstart).mp hdoc, hsome, hallowed⟩
    have hframe := frame_of_targetsStruck htouch (hstart.trans hbegun) hwork hstruck
    rw [LeavesPart, ← hafter.files] at hframe
    exact hframe.imp_right fun hpart => ⟨hwork, hpart⟩

/-- An update that fails leaves the document and every other file as they were, and beyond them there is only the lock and, when there
was something to do, a copy of the document. A mishap may have cut that copy short, or two of them have left the temporary file too. An
update that finds nothing to do leaves the document alone as well, and one that does something changes the document alone. -/
theorem update_frame (p : Protector) (operation : Operation) (confirmed : Bool) (cancelAfter : Option Nat) (path : String)
    (faulty : FaultyWorld) :
    (ending (update p operation confirmed cancelAfter path) faulty).2.mishaps = faulty.mishaps ∧
      match ending (update p operation confirmed cancelAfter path) faulty with
      | (.error failure, left) =>
        LeftAlone path (HasWork operation confirmed path faulty.world) faulty.world left.world.files ∨
          HasWork operation confirmed path faulty.world ∧ LeavesPart path faulty.world failure left
      | (.ok report, left) =>
        if report.isIdle then LeftAlone path (HasWork operation confirmed path faulty.world) faulty.world left.world.files
        else ∃ copy, report.backup = some copy ∧ Replaced path copy faulty.world left.world.files := by
  have hfollows := follows_underLock (follows_updateLocked p operation confirmed cancelAfter path) path
  rcases hrun : ending (update p operation confirmed cancelAfter path) faulty with ⟨failure | report, left⟩
  · obtain ⟨hmishaps, hcalm | hstruck⟩ := hfollows.error hrun
    · exact ⟨hmishaps, Or.inl ((update_cases hcalm).2.elim And.right fun ⟨_, _, hok, _⟩ => nomatch hok)⟩
    · exact ⟨hmishaps, frame_of_lockStruck hstruck⟩
  · obtain ⟨hmishaps, hcalm⟩ := hfollows.ok hrun
    refine ⟨hmishaps, ?_⟩
    dsimp only
    rcases (update_cases hcalm).2 with ⟨⟨_, hfail⟩ | hidle, halone⟩ | ⟨report, copy, hreport, hsome, hbackup, hreplaced⟩
    · cases hfail
    · obtain rfl := Except.ok.inj hidle
      rw [if_pos (by rfl)]
      exact halone
    · obtain rfl := Except.ok.inj hreport
      rw [if_neg (by simp [Report.isIdle, hsome])]
      exact ⟨copy, hbackup, hreplaced⟩

/-- The device of the sample is full: of the copy only four bytes can be written. -/
def fullSample : FaultyWorld := .full sampleWorld 6 4

/-- Encrypting the sample leaves a copy of it, though no decrypting was confirmed, when it is cancelled before the first secret. On a full
device it leaves a part of a copy, with other bits than those of the sample. -/
theorem update_leaves_copy :
    ((outcome (update sampleProtector .encrypt false (some 0) "app.json") sampleWorld).1 =
        .error (.bulk (.cancelled "app.json" 0 2)) ∧
      (outcome (update sampleProtector .encrypt false (some 0) "app.json") sampleWorld).2.files.stat ["work"]
        "app.json.backup.19700101000000" = .ok (.file (Bytes.ofText sample.raw) 0o600)) ∧
    (ending (update sampleProtector .encrypt false none "app.json") fullSample).1 =
        .error (.bulk (.backupFailed "app.json" .noSpace)) ∧
      (ending (update sampleProtector .encrypt false none "app.json") fullSample).2.world.files.stat ["work"]
        "app.json.backup.19700101000000" = .ok (.file ((Bytes.ofText sample.raw).take 4) 0o644) := by
  refine ⟨⟨?_, ?_⟩, ?_, ?_⟩
  all_goals decide +kernel

end Bulk

end SealedConfig
