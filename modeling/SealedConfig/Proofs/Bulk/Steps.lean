import SealedConfig.Bulk.Update
import SealedConfig.Proofs.Document.Loading
import SealedConfig.Proofs.Host.Files

/-!
# The steps of an update

What copying a document, rewriting its secrets and writing it come to in a world. Rewriting leaves the files alone; a copy is made at
the first free name, or nothing is.
-/

namespace SealedConfig

open Run

variable {path : String} {w after : World}

namespace Bulk

/-! ## Copies -/

/-- A copy is a new file with the content and the bits of the one at the path. -/
theorem copyNew_eq_ok_iff {copy : String} {copied : FileTree} :
    w.copyNew path copy = .ok copied ↔
      ∃ content mode, w.files.stat w.here path = .ok (.file content mode) ∧
        w.files.createNew w.here copy content mode = .ok copied := by
  rw [World.copyNew]
  cases w.files.stat w.here path with
  | error fault => simp
  | ok node =>
    cases node with
    | directory mode => simp
    | file content mode =>
      constructor
      · intro h
        exact ⟨content, mode, rfl, h⟩
      · rintro ⟨_, _, ⟨⟩, h⟩
        exact h

/-- A copy of a file is a new one with its content and its bits. -/
theorem copyNew_eq {content : Bytes} {mode : Nat} (hfile : w.files.stat w.here path = .ok (.file content mode)) (copy : String) :
    w.copyNew path copy = w.files.createNew w.here copy content mode := by
  rw [World.copyNew, hfile]

/-- What trying for a copy comes to. -/
theorem outcome_backupFrom (path stamp : String) (content : Bytes) (mode room attempt : Nat) (w : World) :
    outcome (backupFrom path stamp content mode (room + 1) attempt) w =
      match w.files.createNew w.here (backupPath path stamp attempt) content mode with
      | .ok copied => (.ok (backupPath path stamp attempt), { w with files := copied })
      | .error .alreadyExists => outcome (backupFrom path stamp content mode room (attempt + 1)) w
      | .error fault => (.error (.bulk (.backupFailed path fault)), w) := by
  have hopen : Host.createNew (m := StateM World) (backupPath path stamp attempt) w =
      w.withOpened (w.files.openNew w.here (backupPath path stamp attempt)) := rfl
  rw [backupFrom, outcome_bind, outcome_step, hopen]
  rcases w.files.openNew_cases w.here (backupPath path stamp attempt) content mode with
    ⟨fault, hfail, hnone⟩ | ⟨location, hfree, hopened, hmade⟩
  · rw [hfail, hnone]
    cases fault <;> rfl
  · rw [hopened, hmade]
    have hfill := Host.fill_set (FileTree.ne_nil_of_get?_none hfree) w w.files content FileTree.plainMode mode
    have hfilled : outcome (Run.attempt (noBackup path) (Host.fill (m := StateM World) location content mode).run)
        { w with files := w.files.set location (.file [] FileTree.plainMode) } =
          (.ok (), { w with files := w.files.set location (.file content mode) }) := by
      rw [outcome_attempt]
      exact congrArg (fun seen => (seen.1.mapError (noBackup path), seen.2)) hfill
    exact outcome_bind_ok hfilled

/-- A file is copied with its content and its bits. -/
theorem outcome_backup {content : Bytes} {mode : Nat} (hfile : w.files.stat w.here path = .ok (.file content mode))
    (stamp : String) : outcome (backup path stamp) w = outcome (backupFrom path stamp content mode backupLimit 0) w := by
  have hread : outcome (attempt (noBackup path) (Host.read path)) w = (.ok content, w) := by
    have hcontent : w.files.read w.here path = .ok content := by rw [FileTree.read, hfile]
    exact congrArg (fun result => (result.mapError (noBackup path), w)) hcontent
  have hmode : outcome (attempt (noBackup path) (Host.modeOf path)) w = (.ok mode, w) := by
    have hbits : w.files.modeOf w.here path = .ok mode := by rw [FileTree.modeOf, hfile]
    exact congrArg (fun result => (result.mapError (noBackup path), w)) hbits
  rw [backup, outcome_bind_ok hread, outcome_bind_ok hmode]

/-- What is no file is not copied. -/
theorem outcome_backup_error (hfile : ∀ content mode, w.files.stat w.here path ≠ .ok (.file content mode)) (stamp : String) :
    ∃ fault, outcome (backup path stamp) w = (.error (.bulk (.backupFailed path fault)), w) ∧
      ∀ copy, w.copyNew path copy = .error fault := by
  have hread : ∃ fault, w.files.read w.here path = .error fault ∧ ∀ copy, w.copyNew path copy = .error fault := by
    unfold FileTree.read World.copyNew
    cases hnode : w.files.stat w.here path with
    | error fault => exact ⟨fault, rfl, fun _ => rfl⟩
    | ok node =>
      cases node with
      | file content mode => exact absurd hnode (hfile content mode)
      | directory mode => exact ⟨_, rfl, fun _ => rfl⟩
  obtain ⟨fault, hfault, hcopy⟩ := hread
  refine ⟨fault, ending_bind_error ?_, hcopy⟩
  exact congrArg (fun result : Except FileFault Bytes => (result.mapError (noBackup path), w)) hfault

/-- A copy is made under one of the names that are tried, or none is made and the world stays as it is. -/
theorem backupFrom_cases {content : Bytes} {mode : Nat} (hfile : w.files.stat w.here path = .ok (.file content mode))
    (stamp : String) (room attempt : Nat) {result : Except Failure String}
    (h : outcome (backupFrom path stamp content mode room attempt) w = (result, after)) :
    (∃ failure, result = .error failure) ∧ after = w ∨
      ∃ n copied, n < attempt + room ∧ result = .ok (backupPath path stamp n) ∧
        w.copyNew path (backupPath path stamp n) = .ok copied ∧ after = { w with files := copied } := by
  induction room generalizing attempt with
  | zero =>
    obtain ⟨rfl, rfl⟩ := Prod.mk.inj h
    exact Or.inl ⟨⟨_, rfl⟩, rfl⟩
  | succ room ih =>
    rw [outcome_backupFrom, ← copyNew_eq hfile] at h
    split at h
    · rename_i copied hcopied
      obtain ⟨rfl, rfl⟩ := Prod.mk.inj h
      exact Or.inr ⟨attempt, copied, by omega, rfl, hcopied, rfl⟩
    · rcases ih (attempt + 1) h with hfail | ⟨n, copied, hn, hrest⟩
      · exact Or.inl hfail
      · exact Or.inr ⟨n, copied, by omega, hrest⟩
    · obtain ⟨rfl, rfl⟩ := Prod.mk.inj h
      exact Or.inl ⟨⟨_, rfl⟩, rfl⟩

/-- A copy is made when one of the names that are tried is free and everything that is tried before it is taken or free. -/
theorem backupFrom_ok {content : Bytes} {mode : Nat} (hfile : w.files.stat w.here path = .ok (.file content mode))
    (stamp : String) (room attempt : Nat) {n : Nat} (hle : attempt ≤ n) (hn : n < attempt + room)
    (hfree : ∃ copied, w.copyNew path (backupPath path stamp n) = .ok copied)
    (hbefore : ∀ k < n, w.copyNew path (backupPath path stamp k) = .error .alreadyExists ∨
      ∃ copied, w.copyNew path (backupPath path stamp k) = .ok copied) :
    ∃ copy after, outcome (backupFrom path stamp content mode room attempt) w = (.ok copy, after) := by
  induction room generalizing attempt with
  | zero => omega
  | succ room ih =>
    rw [outcome_backupFrom, ← copyNew_eq hfile]
    have hhere : w.copyNew path (backupPath path stamp attempt) = .error .alreadyExists ∧ attempt ≠ n ∨
        ∃ copied, w.copyNew path (backupPath path stamp attempt) = .ok copied := by
      by_cases heq : attempt = n
      · exact Or.inr (heq ▸ hfree)
      · exact (hbefore attempt (by omega)).imp_left fun h => ⟨h, heq⟩
    rcases hhere with ⟨htaken, hne⟩ | ⟨copied, hcopied⟩
    · rw [htaken]
      exact ih (attempt + 1) (by omega) (by omega)
    · rw [hcopied]
      exact ⟨_, _, rfl⟩

/-! ## Rewriting secrets -/

/-- What an operation makes of the text of a secret. -/
def Becomes (p : Protector) (operation : Operation) (old new : String) : Prop :=
  match operation with
  | .encrypt => ∃ nonce, new = Envelope.enclose p nonce old
  | .decrypt => Envelope.disclose p old = .ok new

/-- Edits that do to each secret what an operation does. -/
inductive Rewrites (p : Protector) (operation : Operation) : List SecretField → List Edit → Prop
  | nil : Rewrites p operation [] []
  | cons {field : SecretField} {value : String} {fields : List SecretField} {edits : List Edit} :
    Becomes p operation field.value value → Rewrites p operation fields edits →
      Rewrites p operation (field :: fields) ((field.path, value) :: edits)

section

variable {p : Protector} {operation : Operation} {fields : List SecretField} {edits : List Edit}

/-- The edits are at the paths of the secrets, in their order. -/
theorem Rewrites.paths (h : Rewrites p operation fields edits) : edits.map Prod.fst = fields.map SecretField.path := by
  induction h with
  | nil => rfl
  | cons _ _ ih => rw [List.map_cons, List.map_cons, ih]

/-- An edit does to a secret what the operation does. -/
theorem Rewrites.exists_field (h : Rewrites p operation fields edits) {edit : Edit} (he : edit ∈ edits) :
    ∃ field ∈ fields, field.path = edit.1 ∧ Becomes p operation field.value edit.2 := by
  induction h with
  | nil => cases he
  | @cons field value fields edits hb _ ih =>
    rcases List.mem_cons.mp he with rfl | he
    · exact ⟨field, List.mem_cons_self, rfl, hb⟩
    · obtain ⟨field', hf, hrest⟩ := ih he
      exact ⟨field', List.mem_cons_of_mem _ hf, hrest⟩

/-- Every secret has its edit. -/
theorem Rewrites.exists_edit (h : Rewrites p operation fields edits) {field : SecretField} (hf : field ∈ fields) :
    ∃ value, (field.path, value) ∈ edits ∧ Becomes p operation field.value value := by
  induction h with
  | nil => cases hf
  | @cons field' value fields edits hb _ ih =>
    rcases List.mem_cons.mp hf with rfl | hf
    · exact ⟨value, List.mem_cons_self, hb⟩
    · obtain ⟨value', hv, hb'⟩ := ih hf
      exact ⟨value', List.mem_cons_of_mem _ hv, hb'⟩

end

variable {p : Protector} {operation : Operation} {cancelAfter : Option Nat} {total done : Nat}

/-- A text is enclosed under some nonce. -/
theorem outcome_enclose (p : Protector) (plain : String) (w : World) :
    ∃ nonce after, outcome (Run.enclose p plain) w = (.ok (Envelope.enclose p nonce plain), after) ∧ w.Agrees after := by
  by_cases h : plain = ""
  · refine ⟨w.draw 12, w, ?_, .refl w⟩
    rw [Run.enclose, if_pos h, Envelope.enclose, if_pos h, outcome_pure]
  · refine ⟨w.draw 12, { w with drawn := w.drawn + 12 }, ?_, ⟨rfl, rfl, rfl⟩⟩
    rw [Run.enclose, if_neg h]
    rfl

/-- Rewriting a secret leaves the files alone and gives what the operation makes of its text; it fails only on a text that does not
open. -/
theorem transform_cases (p : Protector) (operation : Operation) (field : SecretField) {result : Except Failure String}
    (h : outcome (transform p operation field) w = (result, after)) :
    w.Agrees after ∧ ((∃ value, result = .ok value ∧ Becomes p operation field.value value) ∨
      (∃ failure, result = .error failure) ∧ operation = .decrypt ∧
        ∃ fault, Envelope.disclose p field.value = .error fault) := by
  cases operation with
  | encrypt =>
    obtain ⟨nonce, after', heq, hagree⟩ := outcome_enclose p field.value w
    obtain ⟨rfl, rfl⟩ := Prod.mk.inj (h.symm.trans heq)
    exact ⟨hagree, Or.inl ⟨_, rfl, nonce, rfl⟩⟩
  | decrypt =>
    rw [transform, outcome_settle] at h
    obtain ⟨rfl, rfl⟩ := Prod.mk.inj h
    refine ⟨.refl w, ?_⟩
    cases hopen : Envelope.disclose p field.value with
    | ok value => exact Or.inl ⟨value, rfl, hopen⟩
    | error fault => exact Or.inr ⟨⟨_, rfl⟩, rfl, fault, rfl⟩

/-- A check for cancellation leaves the files alone and fails exactly in a run that is cancelled. -/
theorem checkCancelled_cases {result : Except Failure Unit}
    (h : outcome (checkCancelled cancelAfter path done total) w = (result, after)) :
    w.Agrees after ∧ (result = .ok () ∧ isCancelled cancelAfter done = false ∨
      (∃ failure, result = .error failure) ∧ isCancelled cancelAfter done = true) := by
  rw [checkCancelled] at h
  split at h
  · rename_i hc
    obtain ⟨middle, hagree, hfail⟩ := (tells_warn _ _).of_bind h
    obtain ⟨rfl, rfl⟩ := Prod.mk.inj hfail
    exact ⟨hagree, Or.inr ⟨⟨_, rfl⟩, hc⟩⟩
  · rename_i hc
    obtain ⟨rfl, rfl⟩ := Prod.mk.inj h
    exact ⟨.refl w, Or.inl ⟨rfl, by simpa using hc⟩⟩

/-- A run that is cancelled by a number of fields is cancelled by any higher number. -/
theorem isCancelled_mono {more : Nat} (hle : done ≤ more) (h : isCancelled cancelAfter done = true) :
    isCancelled cancelAfter more = true := by
  cases cancelAfter with
  | none => exact h
  | some n =>
    simp only [isCancelled, Option.any_some, decide_eq_true_eq] at h ⊢
    omega

/-- Rewriting secrets stops at the first one, cancelled or on a text that does not open, or gives its edit and goes on with the rest. -/
theorem editsFrom_cons_cases (p : Protector) (operation : Operation) (cancelAfter : Option Nat) (path : String)
    (total done : Nat) (field : SecretField) (fields : List SecretField) {result : Except Failure (List Edit)}
    (h : outcome (editsFrom p operation cancelAfter path total done (field :: fields)) w = (result, after)) :
    (∃ failure, result = .error failure) ∧ w.Agrees after ∧ (isCancelled cancelAfter done = true ∨
        operation = .decrypt ∧ ∃ fault, Envelope.disclose p field.value = .error fault) ∨
      ∃ value begun rest, Becomes p operation field.value value ∧ w.Agrees begun ∧
        outcome (editsFrom p operation cancelAfter path total (done + 1) fields) begun = (rest, after) ∧
        result = rest.map ((field.path, value) :: ·) := by
  rw [editsFrom] at h
  rcases cases_of_bind h with ⟨failure, hcheck, rfl⟩ | ⟨_, checked, hcheck, h⟩
  · obtain ⟨hagree, ⟨hok, -⟩ | ⟨-, hc⟩⟩ := checkCancelled_cases hcheck
    · cases hok
    · exact Or.inl ⟨⟨failure, rfl⟩, hagree, Or.inl hc⟩
  have hchecked : w.Agrees checked := (checkCancelled_cases hcheck).1
  rcases cases_of_bind h with ⟨failure, htransform, rfl⟩ | ⟨value, transformed, htransform, h⟩
  · obtain ⟨hagree, ⟨value, hok, -⟩ | ⟨-, hfault⟩⟩ := transform_cases p operation field htransform
    · cases hok
    · exact Or.inl ⟨⟨failure, rfl⟩, hchecked.trans hagree, Or.inr hfault⟩
  obtain ⟨hagree, ⟨value', hok, hbecomes⟩ | ⟨⟨_, hfail⟩, -⟩⟩ := transform_cases p operation field htransform
  · obtain rfl := Except.ok.inj hok
    obtain ⟨told, htold, h⟩ := (tells_debug _ _).of_bind h
    have hbegun : w.Agrees told := (hchecked.trans hagree).trans htold
    rcases cases_of_bind h with ⟨failure, hrest, rfl⟩ | ⟨edits, rest, hrest, h⟩
    · exact Or.inr ⟨value, told, _, hbecomes, hbegun, hrest, rfl⟩
    · obtain ⟨rfl, rfl⟩ := Prod.mk.inj h
      exact Or.inr ⟨value, told, _, hbecomes, hbegun, hrest, rfl⟩
  · cases hfail

/-- Rewriting secrets leaves the files alone and gives the edits that do to each of them what the operation does; it fails only when
it is cancelled or a text does not open. -/
theorem editsFrom_cases (p : Protector) (operation : Operation) (cancelAfter : Option Nat) (path : String) (total done : Nat)
    (fields : List SecretField) {result : Except Failure (List Edit)}
    (h : outcome (editsFrom p operation cancelAfter path total done fields) w = (result, after)) :
    w.Agrees after ∧ ((∃ edits, result = .ok edits ∧ Rewrites p operation fields edits) ∨
      (∃ failure, result = .error failure) ∧ (isCancelled cancelAfter (done + fields.length) = true ∨
        operation = .decrypt ∧ ∃ field ∈ fields, ∃ fault, Envelope.disclose p field.value = .error fault)) := by
  induction fields generalizing done w result with
  | nil =>
    rw [editsFrom] at h
    rcases cases_of_bind h with ⟨failure, hcheck, rfl⟩ | ⟨_, middle, hcheck, hrest⟩
    · obtain ⟨hagree, ⟨hok, -⟩ | ⟨-, hc⟩⟩ := checkCancelled_cases hcheck
      · cases hok
      · exact ⟨hagree, Or.inr ⟨⟨failure, rfl⟩, Or.inl hc⟩⟩
    · obtain ⟨rfl, rfl⟩ := Prod.mk.inj hrest
      exact ⟨(checkCancelled_cases hcheck).1, Or.inl ⟨[], rfl, .nil⟩⟩
  | cons field fields ih =>
    have hlen : done + 1 + fields.length = done + (field :: fields).length := by
      rw [List.length_cons]
      omega
    rcases editsFrom_cons_cases p operation cancelAfter path total done field fields h with
      ⟨hfail, hagree, hc | ⟨hop, hfault⟩⟩ | ⟨value, begun, rest, hbecomes, hbegun, hrest, rfl⟩
    · exact ⟨hagree, Or.inr ⟨hfail, Or.inl (isCancelled_mono (Nat.le_add_right _ _) hc)⟩⟩
    · exact ⟨hagree, Or.inr ⟨hfail, Or.inr ⟨hop, field, List.mem_cons_self, hfault⟩⟩⟩
    obtain ⟨hagree, ⟨edits, rfl, hrewrites⟩ | ⟨⟨failure, rfl⟩, hcause⟩⟩ := ih (done + 1) hrest
    · exact ⟨hbegun.trans hagree, Or.inl ⟨_, rfl, .cons hbecomes hrewrites⟩⟩
    · refine ⟨hbegun.trans hagree, Or.inr ⟨⟨failure, rfl⟩, ?_⟩⟩
      rw [hlen] at hcause
      exact hcause.imp_right fun ⟨hop, field', hf, hfault⟩ => ⟨hop, field', List.mem_cons_of_mem _ hf, hfault⟩

/-! ## Writing -/

/-- A document is written by replacing the content of its file, and if that fails nothing is changed. -/
theorem write_cases (path content : String) {result : Except Failure Unit}
    (h : outcome (write path content) w = (result, after)) :
    (∃ failure, result = .error failure) ∧ w.Agrees after ∧
        (∃ fault, w.files.replace w.here path (Bytes.ofText content) = .error fault) ∨
      result = .ok () ∧ ∃ replaced, w.files.replace w.here path (Bytes.ofText content) = .ok replaced ∧
        w.Changes replaced after := by
  rw [write, outcome_bind, outcome_attempt, Host.replace_eq] at h
  cases hfiles : w.files.replace w.here path (Bytes.ofText content) with
  | error fault =>
    rw [hfiles] at h
    obtain ⟨rfl, rfl⟩ := Prod.mk.inj h
    exact Or.inl ⟨⟨_, rfl⟩, .refl w, fault, rfl⟩
  | ok replaced =>
    rw [hfiles] at h
    obtain ⟨event, htells⟩ := tells_debug "document written" [Log.plain "path" path, Log.count "bytes" content.utf8ByteSize]
    have hdone : outcome (debug "document written" _) { w with files := replaced } = (result, after) := h
    rw [htells] at hdone
    obtain ⟨rfl, rfl⟩ := Prod.mk.inj hdone
    exact Or.inr ⟨rfl, replaced, rfl, (World.Changes.set w replaced).trans (World.agrees_tell _ event)⟩

end Bulk

end SealedConfig
