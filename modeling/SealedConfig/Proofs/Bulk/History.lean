import SealedConfig.Proofs.Bulk.Encrypting
import SealedConfig.Proofs.Bulk.Naming

/-!
# No version of a document is lost

Updates of one document follow one another, by whatever clock, and between them the document may be changed from outside. What an
update replaced is kept in its copy: no later update writes to the name of a copy that is there, and a copy is only made where nothing
is.
-/

namespace SealedConfig.Bulk

open FileTree Run

/-- One update among many: the world that it finds, its result, and the world that it leaves. -/
structure Turn where
  before : World
  result : Except Failure Report
  after : World

namespace Turn

/-- A turn is a run of an update on a path. -/
def Updates (path : String) (t : Turn) : Prop :=
  ∃ (p : Protector) (operation : Operation) (confirmed : Bool) (cancelAfter : Option Nat),
    outcome (update p operation confirmed cancelAfter path) t.before = (t.result, t.after)

/-- A turn makes a copy: under a name that it tries, where nothing was before, there is a file afterwards. -/
structure Makes (path copy : String) (content : Bytes) (mode : Nat) (t : Turn) : Prop where
  named : IsBackupName t.before path copy
  free : t.before.files.IsFree t.before.here copy
  made : t.after.files.stat t.after.here copy = .ok (.file content mode)

end Turn

/-- A world that is seen from the same place and has other files only where a path leads to. The time and all else may differ. -/
structure EditedAt (path : String) (w next : World) : Prop where
  here : next.here = w.here
  elsewhere : ∀ location, ¬w.files.Leads w.here path location → next.files.get? location = w.files.get? location

/-- A history of updates on a path, first to last, from a world to a world. Before each of them and behind the last one the file at
the path may be changed from outside. -/
inductive History (path : String) (start : World) : List Turn → World → Prop
  | begin {w : World} : EditedAt path start w → History path start [] w
  | turn {turns : List Turn} {t : Turn} {next : World} :
    History path start turns t.before → t.Updates path → EditedAt path t.after next → History path start (turns ++ [t]) next

variable {path copy : String} {content : Bytes} {mode : Nat} {t : Turn}

/-! ## The copy of a turn -/

/-- Names for copies that lead to one location are the same. -/
theorem backupName_unique {w : World} {other : String} {location : Location} (h : IsBackupName w path copy)
    (hl : w.files.Leads w.here copy location) {w' : World} (h' : IsBackupName w' path other)
    (hl' : w.files.Leads w.here other location) : copy = other := by
  obtain ⟨moment, attempt, -, -, rfl⟩ := h
  obtain ⟨moment', attempt', -, -, rfl⟩ := h'
  rw [backupPath_eq] at hl hl' ⊢
  rw [backupPath_eq]
  rw [ending_unique (isEnding_backupEnding moment attempt) (isEnding_backupEnding moment' attempt') hl hl']

/-- No name for a copy leads to the lock. -/
theorem not_leads_lock {w : World} {location : Location} (h : IsBackupName w path copy) (hl : w.files.Leads w.here copy location) :
    ¬w.files.Leads w.here (lockPath path) location := by
  intro hlock
  obtain ⟨moment, attempt, -, -, rfl⟩ := h
  rw [backupPath_eq] at hl
  exact backupEnding_ne_lock moment.stamp attempt (ending_unique (isEnding_backupEnding moment attempt) isEnding_lock hl hlock)

/-- What a turn makes under the name of a copy stands, where nothing was before, in a tree that gained it. -/
theorem Turn.Makes.exists_place (h : t.Makes path copy content mode) (hhere : t.after.here = t.before.here) {tree : FileTree}
    {fresh : Location → Prop} (hgains : tree.Gains fresh t.after.files)
    (htree : ∀ place, t.before.files.resolve t.before.here copy = .ok place →
      tree.resolve t.before.here copy = .ok place ∧ tree.get? place.location = t.before.files.get? place.location) :
    ∃ place, t.before.files.resolve t.before.here copy = .ok place ∧ fresh place.location := by
  obtain ⟨place, hplace, hnone⟩ := h.free
  obtain ⟨hresolve, hget⟩ := htree place hplace
  obtain ⟨place', hplace', hfile, -⟩ := stat_eq_file_iff.mp h.made
  rw [hhere] at hplace'
  obtain rfl : place = place' := Except.ok.inj (hresolve.symm.trans (hgains.resolve_iff.mp hplace'))
  refine ⟨place, hplace, ?_⟩
  rcases hgains place.location with heq | ⟨-, -, hfresh⟩
  · rw [hfile, hget, hnone] at heq
    cases heq
  · exact hfresh

/-- What a turn makes is the copy of the document, of which it makes one at most. -/
theorem copies_cases (h : t.Updates path) :
    (∀ copy content mode, ¬t.Makes path copy content mode) ∨
      ∃ made old bits, CopyMade path made old bits t.before t.after.files ∧
        ∀ copy content mode, t.Makes path copy content mode → copy = made ∧ content = old ∧ mode = bits := by
  obtain ⟨p, operation, confirmed, cancelAfter, hrun⟩ := h
  obtain ⟨hhere, hcases⟩ := update_cases hrun
  have hunique {made : String} {old : Bytes} {bits : Nat} (hmade : CopyMade path made old bits t.before t.after.files)
      {copy : String} {content : Bytes} {mode : Nat} (hmakes : t.Makes path copy content mode)
      (hplace : ∃ place, t.before.files.resolve t.before.here copy = .ok place ∧
        Sidecar t.before.files t.before.here path made place.location) : copy = made ∧ content = old ∧ mode = bits := by
    obtain ⟨place, hplace, hlock | hcopy⟩ := hplace
    · exact absurd hlock (not_leads_lock hmakes.named ⟨place, hplace, rfl⟩)
    · obtain rfl := backupName_unique hmakes.named ⟨place, hplace, rfl⟩ hmade.named hcopy
      have hstat := hmakes.made
      rw [hhere, hmade.copied] at hstat
      obtain ⟨rfl, rfl⟩ := FileNode.file.inj (Except.ok.inj hstat)
      exact ⟨rfl, rfl, rfl⟩
  rcases hcases with ⟨-, -, hgains | ⟨-, made, old, bits, hmade, hgains⟩⟩ | ⟨_, made, -, -, -, target, old, new, bits, hmade, hleads, -, -, hgains⟩
  · refine Or.inl fun copy content mode hmakes => ?_
    obtain ⟨place, hplace, hlock⟩ := hmakes.exists_place hhere hgains fun place hplace => ⟨hplace, rfl⟩
    exact not_leads_lock hmakes.named ⟨place, hplace, rfl⟩ hlock
  · refine Or.inr ⟨made, old, bits, hmade, fun copy content mode hmakes => hunique hmade hmakes ?_⟩
    exact hmakes.exists_place hhere hgains fun place hplace => ⟨hplace, rfl⟩
  · -- the document that is written was there before, so it is not where the copy is made
    obtain ⟨place, hplace, hfile, -⟩ := stat_eq_file_iff.mp hmade.original
    obtain rfl : place.location = target := Leads.unique ⟨place, hplace, rfl⟩ hleads
    refine Or.inr ⟨made, old, bits, hmade, fun copy content mode hmakes => hunique hmade hmakes ?_⟩
    have hfree : ∀ place', t.before.files.resolve t.before.here copy = .ok place' → place'.location ≠ place.location := by
      intro place' hplace' heq
      obtain ⟨place'', hplace'', hnone⟩ := hmakes.free
      obtain rfl : place' = place'' := Except.ok.inj (hplace'.symm.trans hplace'')
      rw [heq, hfile] at hnone
      cases hnone
    obtain ⟨place', hplace', hsidecar⟩ := hmakes.exists_place hhere hgains fun place' hplace' =>
      ⟨(resolve_set_iff hfile).mpr hplace', get?_set_other _ (hfree place' hplace') _⟩
    exact ⟨place', hplace', hsidecar⟩

/-- What a turn makes is the copy of the document. -/
theorem Turn.Makes.copyMade (h : t.Updates path) (hmakes : t.Makes path copy content mode) :
    CopyMade path copy content mode t.before t.after.files := by
  rcases copies_cases h with hnone | ⟨made, old, bits, hmade, hunique⟩
  · exact absurd hmakes (hnone copy content mode)
  · obtain ⟨rfl, rfl, rfl⟩ := hunique copy content mode hmakes
    exact hmade

/-- A turn makes one copy at most. -/
theorem Turn.Makes.unique (h : t.Updates path) (hmakes : t.Makes path copy content mode) {other : String} {content' : Bytes}
    {mode' : Nat} (hother : t.Makes path other content' mode') : copy = other := by
  rcases copies_cases h with hnone | ⟨made, old, bits, -, hunique⟩
  · exact absurd hmakes (hnone copy content mode)
  · rw [(hunique copy content mode hmakes).1, (hunique other content' mode' hother).1]

/-- The copy of a document that is there after a turn was made by it. -/
theorem CopyMade.makes (h : CopyMade path copy content mode t.before t.after.files) (hhere : t.after.here = t.before.here) :
    t.Makes path copy content mode := by
  refine ⟨h.named, h.free, ?_⟩
  rw [hhere]
  exact h.copied

/-- A turn that does something makes the copy that it reports. -/
theorem exists_makes_of_report (h : t.Updates path) {report : Report} (hresult : t.result = .ok report)
    (hsome : report.isIdle = false) : ∃ copy content mode, report.backup = some copy ∧ t.Makes path copy content mode := by
  obtain ⟨p, operation, confirmed, cancelAfter, hrun⟩ := h
  rw [hresult] at hrun
  obtain ⟨hhere, hcases⟩ := update_cases hrun
  rcases hcases with ⟨⟨failure, hfail⟩ | hidle, -⟩ | ⟨report', copy, hok, -, hbackup, target, old, new, bits, hmade, -⟩
  · cases hfail
  · obtain rfl := Except.ok.inj hidle
    cases hsome
  · obtain rfl := Except.ok.inj hok
    exact ⟨copy, old, bits, hbackup, hmade.makes hhere⟩

/-! ## What is kept -/

/-- A path leads to a file at a location. -/
structure Anchored (path : String) (target : Location) (base : World) : Prop where
  leads : base.files.Leads base.here path target
  isFile : ∃ content mode, base.files.get? target = some (.file content mode)

/-- Everything that was there in a world is still there, except at one location. -/
structure KeptSince (base : World) (target : Location) (w : World) : Prop where
  here : w.here = base.here
  keeps : ∀ location node, location ≠ target → base.files.get? location = some node → w.files.get? location = some node

variable {base w : World} {target : Location}

theorem KeptSince.refl (base : World) (target : Location) : KeptSince base target base := ⟨rfl, fun _ _ _ h => h⟩

/-- A location that holds a file was no directory, so all directories are still there. -/
theorem KeptSince.keepsDirectories (h : KeptSince base target w) (ha : Anchored path target base) :
    base.files.KeepsDirectories w.files := by
  intro location bits hdirectory
  refine h.keeps location _ ?_ hdirectory
  rintro rfl
  obtain ⟨content, mode, hfile⟩ := ha.isFile
  rw [hfile] at hdirectory
  cases hdirectory

/-- A path leads to where it led. -/
theorem KeptSince.leads (h : KeptSince base target w) (ha : Anchored path target base) {other : String} {location : Location}
    (hl : base.files.Leads base.here other location) : w.files.Leads w.here other location := by
  obtain ⟨place, hplace, rfl⟩ := hl
  rw [h.here]
  exact ⟨place, (h.keepsDirectories ha).resolve hplace, rfl⟩

/-- An update changes what was there at the document alone. -/
theorem KeptSince.update (h : KeptSince base target w) (ha : Anchored path target base) {t : Turn} (hbefore : t.before = w)
    (ht : t.Updates path) : KeptSince base target t.after := by
  subst hbefore
  obtain ⟨p, operation, confirmed, cancelAfter, hrun⟩ := ht
  obtain ⟨hhere, hcases⟩ := update_cases hrun
  refine ⟨hhere.trans h.here, ?_⟩
  intro location node hne hnode
  have hbefore := h.keeps location node hne hnode
  rcases hcases with ⟨-, -, hgains | ⟨-, made, old, bits, -, hgains⟩⟩ | ⟨_, made, -, -, -, target', old, new, bits, -, hleads, -, -, hgains⟩
  · exact hgains.get?_eq_some hbefore
  · exact hgains.get?_eq_some hbefore
  · obtain rfl : target' = target := hleads.unique (h.leads ha ha.leads)
    refine hgains.get?_eq_some ?_
    rw [get?_set_other _ hne]
    exact hbefore

/-- So does whoever changes the document from outside. -/
theorem KeptSince.edited (h : KeptSince base target w) (ha : Anchored path target base) {next : World} (he : EditedAt path w next) :
    KeptSince base target next := by
  refine ⟨he.here.trans h.here, ?_⟩
  intro location node hne hnode
  rw [he.elsewhere location fun hl => hne (hl.unique (h.leads ha ha.leads))]
  exact h.keeps location node hne hnode

/-- A copy is kept: in some world the path led to a file and the name of the copy to another one, and since then everything but the
file at the path is as it was. -/
def IsKept (path copy : String) (content : Bytes) (mode : Nat) (w : World) : Prop :=
  ∃ base target, Anchored path target base ∧ KeptSince base target w ∧
    base.files.stat base.here copy = .ok (.file content mode) ∧ ¬base.files.Leads base.here copy target

/-- A copy that is kept is there. -/
theorem IsKept.stat (h : IsKept path copy content mode w) : w.files.stat w.here copy = .ok (.file content mode) := by
  obtain ⟨base, target, ha, hkept, hstat, hother⟩ := h
  obtain ⟨place, hplace, hfile, hdir⟩ := stat_eq_file_iff.mp hstat
  rw [hkept.here]
  refine stat_eq_file_iff.mpr ⟨place, (hkept.keepsDirectories ha).resolve hplace, ?_, hdir⟩
  refine hkept.keeps _ _ ?_ hfile
  rintro rfl
  exact hother ⟨place, hplace, rfl⟩

/-- A copy that is kept stays so in an update and in a change of the document from outside. -/
theorem IsKept.turn (h : IsKept path copy content mode t.before) (ht : t.Updates path) {next : World}
    (he : EditedAt path t.after next) : IsKept path copy content mode next := by
  obtain ⟨base, target, ha, hkept, hcopy⟩ := h
  exact ⟨base, target, ha, (hkept.update ha rfl ht).edited ha he, hcopy⟩

/-- The copy that a turn makes is kept from then on. -/
theorem Turn.Makes.isKept (ht : t.Updates path) (h : t.Makes path copy content mode) {next : World}
    (he : EditedAt path t.after next) : IsKept path copy content mode next := by
  have hmade := h.copyMade ht
  obtain ⟨new, bits, hnew⟩ : ∃ new bits, t.after.files.stat t.after.here path = .ok (.file new bits) := by
    obtain ⟨p, operation, confirmed, cancelAfter, hrun⟩ := ht
    obtain ⟨hhere, ⟨-, halone⟩ | ⟨_, _, -, -, -, _, _, new, bits, -, -, -, hnew, -⟩⟩ := update_cases hrun
    · rw [hhere, halone.target]
      exact ⟨content, mode, hmade.original⟩
    · rw [hhere]
      exact ⟨new, bits, hnew⟩
  obtain ⟨place, hplace, hfile, -⟩ := stat_eq_file_iff.mp hnew
  have ha : Anchored path place.location t.after := ⟨⟨place, hplace, rfl⟩, new, bits, hfile⟩
  refine ⟨t.after, place.location, ha, (KeptSince.refl _ _).edited ha he, h.made, fun hl => ?_⟩
  exact (isBeside_copy h.named hl).not_leads ⟨place, hplace, rfl⟩

/-! ## Histories -/

/-- Every copy that was made in a history is kept. -/
theorem History.isKept {start : World} {turns : List Turn} (h : History path start turns w) :
    ∀ t ∈ turns, ∀ copy content mode, t.Makes path copy content mode → IsKept path copy content mode w := by
  induction h with
  | begin he =>
    intro other hmem
    cases hmem
  | turn hbefore ht he ih =>
    intro other hmem copy content mode hmakes
    rcases List.mem_append.mp hmem with hearlier | hlast
    · exact (ih other hearlier copy content mode hmakes).turn ht he
    · obtain rfl := List.mem_singleton.mp hlast
      exact hmakes.isKept ht he

/-- All turns of a history are updates. -/
theorem History.updates {start : World} {turns : List Turn} (h : History path start turns w) : ∀ t ∈ turns, t.Updates path := by
  induction h with
  | begin he =>
    intro other hmem
    cases hmem
  | turn hbefore ht he ih =>
    intro other hmem
    rcases List.mem_append.mp hmem with hearlier | hlast
    · exact ih other hearlier
    · obtain rfl := List.mem_singleton.mp hlast
      exact ht

/-- Two turns of a history do not make copies under one name: the later one finds that of the earlier one there. -/
theorem History.pairwise {start : World} {turns : List Turn} (h : History path start turns w) :
    turns.Pairwise fun t t' => ∀ copy content mode copy' content' mode',
      t.Makes path copy content mode → t'.Makes path copy' content' mode' → copy ≠ copy' := by
  induction h with
  | begin he => exact .nil
  | turn hbefore ht he ih =>
    refine List.pairwise_append.mpr ⟨ih, List.pairwise_singleton _ _, ?_⟩
    intro earlier hmem last hlast copy content mode copy' content' mode' hmakes hmakes' heq
    obtain rfl := List.mem_singleton.mp hlast
    subst heq
    obtain ⟨place, hplace, hfile, -⟩ := stat_eq_file_iff.mp (hbefore.isKept earlier hmem copy content mode hmakes).stat
    obtain ⟨place', hplace', hnone⟩ := hmakes'.free
    obtain rfl : place = place' := Except.ok.inj (hplace.symm.trans hplace')
    rw [hfile] at hnone
    cases hnone

/-! ## The name of the copy of a turn -/

/-- An update that makes a copy has work. -/
theorem hasWork_of_makes {p : Protector} {operation : Operation} {confirmed : Bool} {cancelAfter : Option Nat}
    (h : outcome (update p operation confirmed cancelAfter path) t.before = (t.result, t.after))
    (hmakes : t.Makes path copy content mode) : HasWork operation confirmed path t.before := by
  -- an update without work leaves the files as they are under the lock
  rcases underLock_cases h with ⟨-, hsame, -⟩ | ⟨locked, start, finish, hlock, hstart, hbody, hafter⟩
  · have hgains : t.before.files.Gains (fun _ => False) t.after.files := by
      rw [hsame]
      exact .refl _ _
    obtain ⟨place, hplace, hfalse⟩ := hmakes.exists_place (by rw [hsame]) hgains fun place hplace => ⟨hplace, rfl⟩
    exact hfalse.elim
  · have hquiet (hfinish : start.Agrees finish) : False := by
      have hfiles : t.after.files = locked := hafter.files.trans (hfinish.files.trans hstart.files)
      have hhere : t.after.here = t.before.here := hafter.here.trans (hfinish.here.trans hstart.here)
      obtain ⟨place, hplace, hfresh⟩ := hmakes.exists_place hhere (hfiles ▸ gains_of_touch hlock) fun place hplace => ⟨hplace, rfl⟩
      exact not_leads_lock hmakes.named ⟨place, hplace, rfl⟩ hfresh
    rcases updateLocked_cases hbody with ⟨-, hfinish, -⟩ | ⟨doc, bits, hdoc, hrest⟩
    · exact (hquiet hfinish).elim
    rcases hrest with ⟨-, -, hfinish⟩ | ⟨-, -, -, -, hfinish⟩ | ⟨hsome, hallowed, -⟩
    · exact (hquiet hfinish).elim
    · exact (hquiet hfinish).elim
    · exact ⟨doc, bits, (standsAt_locked_iff hlock hstart).mp hdoc, hsome, hallowed⟩

/-- A copy that is made under the lock has the first free name. -/
theorem isFirstFree_of_makes {p : Protector} {operation : Operation} {confirmed : Bool} {cancelAfter : Option Nat}
    (h : outcome (update p operation confirmed cancelAfter path) t.before = (t.result, t.after)) {moment : Moment}
    (hlock : ∃ locked, t.before.files.touch t.before.here (lockPath path) = .ok locked) (hnow : t.before.now = some moment)
    (hfits : NamesFit path moment t.before) (hmakes : t.Makes path copy content mode) :
    ∃ n, IsFirstFree path moment n t.before ∧ copy = backupPath path moment.stamp n := by
  rcases update_named hlock hnow hfits (hasWork_of_makes h hmakes) h with ⟨n, old, bits, hfirst, hcopy, -⟩ | ⟨htaken, -⟩
  · have hmade := hcopy.makes (update_cases h).1
    exact ⟨n, hfirst, hmakes.unique ⟨p, operation, confirmed, cancelAfter, h⟩ hmade⟩
  · obtain ⟨moment', attempt, hnow', hattempt, rfl⟩ := hmakes.named
    obtain rfl : moment = moment' := Option.some.inj (hnow.symm.trans hnow')
    exact absurd hmakes.free (htaken attempt hattempt)

/-- No version of a document is lost. In every history each update that does something reports the copy that it made; every copy that
was ever made, by an update that failed later too, holds at the end what the document was before that update; and different updates
make different copies, which are different files at the end. An update that gets its lock makes its copy under the first free one of
the hundred names of the second, it makes one when it has work and not all of them are taken, and it fails for want of a copy exactly
when it has work and all of them are taken. -/
theorem versions_kept (path : String) :
    (∀ start turns w, History path start turns w →
      (∀ t ∈ turns, ∀ report, t.result = .ok report → report.isIdle = false →
        ∃ copy content mode, report.backup = some copy ∧ t.Makes path copy content mode) ∧
      (∀ t ∈ turns, ∀ copy content mode, t.Makes path copy content mode →
        t.before.files.stat t.before.here path = .ok (.file content mode) ∧
          w.files.stat w.here copy = .ok (.file content mode)) ∧
      turns.Pairwise fun t t' => ∀ copy content mode copy' content' mode',
        t.Makes path copy content mode → t'.Makes path copy' content' mode' →
          copy ≠ copy' ∧ ∀ location, w.files.Leads w.here copy location → ¬w.files.Leads w.here copy' location) ∧
    ∀ (p : Protector) operation confirmed cancelAfter (t : Turn) moment,
      outcome (update p operation confirmed cancelAfter path) t.before = (t.result, t.after) →
      (∃ locked, t.before.files.touch t.before.here (lockPath path) = .ok locked) → t.before.now = some moment →
      NamesFit path moment t.before →
        (∀ copy content mode, t.Makes path copy content mode →
          ∃ n, IsFirstFree path moment n t.before ∧ copy = backupPath path moment.stamp n) ∧
        (HasWork operation confirmed path t.before → ¬AllTaken path moment t.before →
          ∃ copy content mode, t.Makes path copy content mode) ∧
        ((∃ failure, t.result = .error failure ∧ failure.IsBackup) ↔
          HasWork operation confirmed path t.before ∧ AllTaken path moment t.before) := by
  refine ⟨?_, ?_⟩
  · intro start turns w h
    refine ⟨?_, ?_, ?_⟩
    · intro t hmem report hresult hsome
      exact exists_makes_of_report (h.updates t hmem) hresult hsome
    · intro t hmem copy content mode hmakes
      exact ⟨(hmakes.copyMade (h.updates t hmem)).original, (h.isKept t hmem copy content mode hmakes).stat⟩
    · refine h.pairwise.imp fun {t t'} hne copy content mode copy' content' mode' hmakes hmakes' => ?_
      have hcopy := hne copy content mode copy' content' mode' hmakes hmakes'
      refine ⟨hcopy, fun location hl hl' => hcopy ?_⟩
      obtain ⟨moment, attempt, hnow, hattempt, rfl⟩ := hmakes.named
      obtain ⟨moment', attempt', hnow', hattempt', rfl⟩ := hmakes'.named
      rw [backupPath_eq] at hl hl' ⊢
      rw [backupPath_eq, ending_unique (isEnding_backupEnding moment attempt) (isEnding_backupEnding moment' attempt') hl hl']
  · intro p operation confirmed cancelAfter t moment h hlock hnow hfits
    refine ⟨fun copy content mode hmakes => isFirstFree_of_makes h hlock hnow hfits hmakes, ?_, isBackup_iff hlock hnow hfits h⟩
    intro hwork hsome
    rcases update_named hlock hnow hfits hwork h with ⟨n, content, bits, -, hcopy, -⟩ | ⟨htaken, -⟩
    · exact ⟨_, content, bits, hcopy.makes (update_cases h).1⟩
    · exact absurd htaken hsome

/-- Nothing is changed from outside. -/
theorem EditedAt.refl (path : String) (w : World) : EditedAt path w w := ⟨rfl, fun _ _ => rfl⟩

/-- After the sample was encrypted its text is still there, in the copy. -/
theorem versions_kept_sample :
    ∃ t copy, History "app.json" sampleWorld [t] t.after ∧ (∃ report, t.result = .ok report ∧ report.isIdle = false) ∧
      t.after.files.stat t.after.here copy = .ok (.file (Bytes.ofText sample.raw) 0o600) := by
  have hencrypt : Operation.encrypt ≠ .decrypt := by decide
  obtain ⟨report, after, edits, edited, hrun, hedited⟩ := update_edits sampleProtector .encrypt true sample_unhindered
    sample_standsAt (fun h => absurd h hencrypt) fun h => absurd h hencrypt
  have hupdates : Turn.Updates "app.json" ⟨sampleWorld, .ok report, after⟩ := by
    refine ⟨sampleProtector, .encrypt, true, none, ?_⟩
    dsimp only
    exact hrun
  have hhistory : History "app.json" sampleWorld [⟨sampleWorld, .ok report, after⟩] after :=
    .turn (.begin (.refl _ _)) hupdates (.refl _ _)
  have hsome : report.isIdle = false := by
    have hpaths := congrArg (List.map KeyPath.display) hedited.rewrites.paths
    rw [List.map_map, List.map_map] at hpaths
    have hfields : report.fields = ["db:a:Password", "Token"] := hedited.fields.trans (hpaths.trans (by cbv))
    rw [Report.isIdle, hfields]
    rfl
  obtain ⟨hreports, hkept, -⟩ := (versions_kept "app.json").1 _ _ _ hhistory
  obtain ⟨copy, content, mode, -, hmakes⟩ := hreports _ List.mem_cons_self report rfl hsome
  obtain ⟨hbefore, hafter⟩ := hkept _ List.mem_cons_self copy content mode hmakes
  obtain ⟨rfl, rfl⟩ := FileNode.file.inj (Except.ok.inj (sample_standsAt.file.symm.trans hbefore))
  exact ⟨_, copy, hhistory, ⟨report, rfl, hsome⟩, hafter⟩

end SealedConfig.Bulk
