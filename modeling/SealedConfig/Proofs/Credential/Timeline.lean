import SealedConfig.Proofs.Credential.Caching

/-!
# The timeline of a cache

What a cache answers and how much it keeps can be told from what happened to it alone: from the last credential of a kind that was put
into it, from what came behind, and from the time that went by. Being asked changes what a cache keeps, since an entry that is too old
is dropped on that occasion, but never what it answers.
-/

namespace SealedConfig.CredentialCache

/-! ## Events -/

/-- What happens to a cache: a credential is put into it, a kind is asked for or dropped, all is dropped, or time goes by. -/
inductive Event where
  | put (credential : Credential)
  | get (kind : CredentialKind)
  | invalidate (kind : CredentialKind)
  | clear
  | wait (milliseconds : Nat)

namespace Event

/-- How long an event takes: only waiting takes time. -/
def duration : Event → Nat
  | wait milliseconds => milliseconds
  | _ => 0

/-- Whether an event asks for a kind. -/
def isGet : Event → Bool
  | get _ => true
  | _ => false

/-- An event that ends the time of what was put of a kind before: another one is put or it is dropped. -/
def Ends (kind : CredentialKind) : Event → Prop
  | put credential => credential.kind = kind
  | invalidate other => other = kind
  | clear => True
  | get _ => False
  | wait _ => False

end Event

/-- The time that events take. -/
def elapsed (events : List Event) : Nat := (events.map Event.duration).sum

/-- The events without those that ask. -/
def unasked (events : List Event) : List Event := events.filter fun event => !event.isGet

/-- The cache behind an event. -/
def meet (cache : CredentialCache) (now : Nat) : Event → CredentialCache
  | .put credential => cache.put now credential
  | .get kind => (cache.get now kind).2
  | .invalidate kind => cache.invalidate kind
  | .clear => cache.clear
  | .wait _ => cache

/-- The cache and the clock behind an event. -/
def step (scene : CredentialCache × Nat) (event : Event) : CredentialCache × Nat :=
  (scene.1.meet scene.2 event, scene.2 + event.duration)

section

variable (lifetime start : Nat) (events : List Event)

/-- The cache that events leave, from one that keeps nothing yet. -/
def after : CredentialCache := (events.foldl step (empty lifetime, start)).1

/-- What the cache behind events answers when it is asked for a kind. -/
def answer (kind : CredentialKind) : Option Credential := ((after lifetime start events).get (start + elapsed events) kind).1

/-- The last of the events that puts a credential of a kind, and the events behind it. -/
structure LastPut (kind : CredentialKind) (credential : Credential) (behind : List Event) : Prop where
  put : ∃ before, events = before ++ .put credential :: behind
  kind_eq : credential.kind = kind
  last : ∀ other, .put other ∈ behind → other.kind ≠ kind

/-- Nothing of a kind is dropped on request. -/
def Undropped (kind : CredentialKind) (behind : List Event) : Prop := .invalidate kind ∉ behind ∧ .clear ∉ behind

/-- The last credential of a kind that was put is live: there is a lifetime, less than it has passed since, and nothing was dropped. -/
structure Live (kind : CredentialKind) (credential : Credential) (behind : List Event) : Prop where
  lastPut : LastPut events kind credential behind
  lasting : lifetime ≠ 0
  recent : elapsed behind < lifetime
  undropped : Undropped kind behind

/-- The last credential of a kind that was put is held: there is a lifetime, nothing was dropped since, and the kind was not asked for
when it was over. -/
structure Held (kind : CredentialKind) (credential : Credential) (behind : List Event) : Prop where
  lastPut : LastPut events kind credential behind
  lasting : lifetime ≠ 0
  undropped : Undropped kind behind
  inTime : ∀ early late, behind = early ++ .get kind :: late → elapsed early < lifetime

end

variable {cache : CredentialCache} {lifetime start now : Nat} {events behind : List Event} {event : Event} {kind : CredentialKind}
  {credential : Credential} {entry : CacheEntry}

/-! ## Time -/

@[simp] theorem elapsed_nil : elapsed [] = 0 := rfl

@[simp] theorem elapsed_append (first second : List Event) : elapsed (first ++ second) = elapsed first + elapsed second := by
  simp [elapsed]

@[simp] theorem elapsed_cons (event : Event) (events : List Event) : elapsed (event :: events) = event.duration + elapsed events := by
  simp [elapsed]

theorem clock_after (scene : CredentialCache × Nat) (events : List Event) :
    (events.foldl step scene).2 = scene.2 + elapsed events := by
  induction events generalizing scene with
  | nil => rfl
  | cons event events ih =>
    rw [List.foldl_cons, ih, elapsed_cons, step, Nat.add_assoc]

theorem after_concat : after lifetime start (events ++ [event]) = (after lifetime start events).meet (start + elapsed events) event := by
  rw [after, List.foldl_append, List.foldl_cons, List.foldl_nil, step, clock_after]
  rfl

/-! ## One event -/

theorem lifetime_meet : (cache.meet now event).lifetime = cache.lifetime := by
  cases event with
  | put credential => exact lifetime_put
  | get kind =>
    rcases cache.get_cases now kind with ⟨entry, -, hget⟩ | ⟨-, swept, hget, hlife, -⟩
    · rw [meet, hget]
    · rw [meet, hget]
      exact hlife
  | invalidate kind => rfl
  | clear => rfl
  | wait milliseconds => rfl

/-- A cache with a lifetime keeps what it is given, and what it kept of other kinds. -/
theorem kept?_put_iff (hlasting : cache.lifetime ≠ 0) :
    (cache.put now credential).kept? kind = some entry ↔
      credential = entry.credential ∧ entry.credential.kind = kind ∧ entry.stored = now ∨
        cache.kept? kind = some entry ∧ credential.kind ≠ kind := by
  by_cases heq : credential.kind = kind
  · subst heq
    rw [kept?_put_self hlasting]
    constructor
    · intro h
      obtain rfl := Option.some.inj h
      exact Or.inl ⟨rfl, rfl, rfl⟩
    · rintro (⟨rfl, -, rfl⟩ | ⟨-, hne⟩)
      · rfl
      · exact absurd rfl hne
  · rw [kept?_put_of_ne (Ne.symm heq)]
    constructor
    · intro h
      exact Or.inr ⟨h, heq⟩
    · rintro (⟨rfl, hkind, -⟩ | ⟨h, -⟩)
      · exact absurd hkind heq
      · exact h

/-- A cache that is asked for a kind drops the entry of that kind if it is too old, and keeps all else. -/
theorem kept?_get_iff {asked : CredentialKind} :
    (cache.get now asked).2.kept? kind = some entry ↔
      cache.kept? kind = some entry ∧ (asked = kind → now - entry.stored < cache.lifetime) := by
  rcases cache.get_cases now asked with ⟨found, ⟨hfound, hfresh⟩, hget⟩ | ⟨hnone, swept, hget, -, hswept, hothers⟩
  · rw [hget]
    refine ⟨fun h => ⟨h, ?_⟩, And.left⟩
    rintro rfl
    obtain rfl : found = entry := Option.some.inj (hfound.symm.trans h)
    exact hfresh
  · rw [hget]
    by_cases heq : asked = kind
    · subst heq
      rw [hswept]
      refine iff_of_false nofun ?_
      rintro ⟨h, hfresh⟩
      exact hnone entry ⟨h, hfresh rfl⟩
    · rw [hothers kind (Ne.symm heq)]
      exact (and_iff_left fun hasked => absurd hasked heq).symm

/-- What a cache keeps behind an event was put by it, or was kept before and the event neither ended its time nor came too late. -/
theorem kept?_meet (hlasting : cache.lifetime ≠ 0) :
    (cache.meet now event).kept? kind = some entry ↔
      event = .put entry.credential ∧ entry.credential.kind = kind ∧ entry.stored = now ∨
        cache.kept? kind = some entry ∧ ¬event.Ends kind ∧ (event = .get kind → now - entry.stored < cache.lifetime) := by
  cases event with
  | put credential =>
    rw [meet, kept?_put_iff hlasting]
    simp [Event.Ends]
  | get asked =>
    rw [meet, kept?_get_iff]
    simp [Event.Ends]
  | invalidate other =>
    by_cases heq : other = kind
    · subst heq
      simp [meet, Event.Ends]
    · simp [meet, Event.Ends, kept?_invalidate_of_ne (Ne.symm heq), heq]
  | clear => simp [meet, Event.Ends]
  | wait milliseconds => simp [meet, Event.Ends]

/-- Every kind that a cache keeps, it keeps once. -/
theorem nodup_kinds_meet (h : (cache.entries.map Prod.fst).Nodup) : ((cache.meet now event).entries.map Prod.fst).Nodup := by
  have hwithout (kind : CredentialKind) : ((without kind cache.entries).map Prod.fst).Nodup :=
    h.sublist (List.filter_sublist.map Prod.fst)
  cases event with
  | put credential =>
    rw [meet, put]
    split
    · exact h
    · refine List.nodup_cons.mpr ⟨?_, hwithout credential.kind⟩
      intro hmem
      obtain ⟨entry, hentry, heq⟩ := List.mem_map.mp hmem
      exact bne_iff_ne.mp (List.mem_filter.mp hentry).2 heq
  | get kind =>
    rw [meet, get]
    split
    · exact h
    · split
      · exact h
      · exact hwithout kind
  | invalidate kind => exact hwithout kind
  | clear => exact List.nodup_nil
  | wait milliseconds => exact h

/-! ## Events behind the last put -/

/-- Events that put or drop nothing of a kind. -/
theorem not_ends_iff : (∀ event ∈ behind, ¬event.Ends kind) ↔
    (∀ other, .put other ∈ behind → other.kind ≠ kind) ∧ Undropped kind behind := by
  constructor
  · intro h
    exact ⟨fun other hput => h _ hput, fun hdrop => h _ hdrop rfl, fun hclear => h _ hclear trivial⟩
  · rintro ⟨hlast, hdrop, hclear⟩ event hevent hends
    cases event with
    | put other => exact hlast other hevent hends
    | invalidate other =>
      obtain rfl : other = kind := hends
      exact hdrop hevent
    | clear => exact hclear hevent
    | get other => exact hends
    | wait milliseconds => exact hends

theorem held_iff : Held lifetime events kind credential behind ↔
    lifetime ≠ 0 ∧ (∃ before, events = before ++ .put credential :: behind) ∧ credential.kind = kind ∧
      (∀ event ∈ behind, ¬event.Ends kind) ∧ ∀ early late, behind = early ++ .get kind :: late → elapsed early < lifetime := by
  rw [not_ends_iff]
  constructor
  · rintro ⟨⟨hput, hkind, hlast⟩, hlasting, hundropped, hinTime⟩
    exact ⟨hlasting, hput, hkind, ⟨hlast, hundropped⟩, hinTime⟩
  · rintro ⟨hlasting, hput, hkind, ⟨hlast, hundropped⟩, hinTime⟩
    exact ⟨⟨hput, hkind, hlast⟩, hlasting, hundropped, hinTime⟩

/-- What is held behind one more event was put by it, or was held before and the event neither ended its time nor came too late. -/
theorem held_concat : Held lifetime (events ++ [event]) kind credential behind ↔
    lifetime ≠ 0 ∧ event = .put credential ∧ credential.kind = kind ∧ behind = [] ∨
      ∃ earlier, behind = earlier ++ [event] ∧ Held lifetime events kind credential earlier ∧ ¬event.Ends kind ∧
        (event = .get kind → elapsed earlier < lifetime) := by
  simp only [held_iff]
  constructor
  · rintro ⟨hlasting, ⟨before, hput⟩, hkind, hends, hinTime⟩
    rcases List.eq_nil_or_concat' behind with rfl | ⟨earlier, final, rfl⟩
    · exact Or.inl ⟨hlasting, (List.append_singleton_inj.mp hput).2, hkind, rfl⟩
    · rw [← List.cons_append, ← List.append_assoc] at hput
      obtain ⟨rfl, rfl⟩ := List.append_singleton_inj.mp hput
      refine Or.inr ⟨earlier, rfl, ⟨hlasting, ⟨before, rfl⟩, hkind, ?_, ?_⟩, ?_, ?_⟩
      · intro other hother
        exact hends other (List.mem_append_left _ hother)
      · rintro early late rfl
        exact hinTime early (late ++ [event]) (by simp)
      · exact hends event (List.mem_append_right _ List.mem_cons_self)
      · rintro rfl
        exact hinTime earlier [] rfl
  · rintro (⟨hlasting, rfl, hkind, rfl⟩ | ⟨earlier, rfl, ⟨hlasting, ⟨before, rfl⟩, hkind, hends, hinTime⟩, hends', hasked⟩)
    · exact ⟨hlasting, ⟨events, rfl⟩, hkind, nofun, by simp⟩
    · refine ⟨hlasting, ⟨before, by simp⟩, hkind, ?_, ?_⟩
      · intro other hother
        rcases List.mem_append.mp hother with hother | hother
        · exact hends other hother
        · exact List.mem_singleton.mp hother ▸ hends'
      · intro early late hsplit
        rcases List.eq_nil_or_concat' late with rfl | ⟨late, final, rfl⟩
        · obtain ⟨rfl, rfl⟩ := List.append_singleton_inj.mp hsplit
          exact hasked rfl
        · rw [← List.cons_append, ← List.append_assoc] at hsplit
          obtain ⟨rfl, rfl⟩ := List.append_singleton_inj.mp hsplit
          exact hinTime early late rfl

/-! ## All events -/

theorem lifetime_after : (after lifetime start events).lifetime = lifetime := by
  induction events using List.reverseRecOn with
  | nil => rfl
  | append_singleton events event ih => rw [after_concat, lifetime_meet, ih]

/-- A cache without a lifetime never keeps anything. -/
theorem after_zero : after 0 start events = empty 0 := by
  induction events using List.reverseRecOn with
  | nil => rfl
  | append_singleton events event ih =>
    rw [after_concat, ih]
    cases event <;> rfl

/-- What a cache keeps is what is held, since it was put. -/
theorem kept?_after : (after lifetime start events).kept? kind = some entry ↔
    ∃ behind, Held lifetime events kind entry.credential behind ∧ entry.stored + elapsed behind = start + elapsed events := by
  rcases Nat.eq_zero_or_pos lifetime with rfl | hpos
  · rw [after_zero]
    exact ⟨nofun, fun ⟨_, hheld, _⟩ => absurd rfl hheld.lasting⟩
  induction events using List.reverseRecOn generalizing entry with
  | nil =>
    constructor
    · intro h
      cases h
    · rintro ⟨behind, hheld, -⟩
      obtain ⟨before, hput⟩ := hheld.lastPut.put
      simp at hput
  | append_singleton events event ih =>
    have hlasting : (after lifetime start events).lifetime ≠ 0 := by
      rw [lifetime_after]
      exact hpos.ne'
    rw [after_concat, kept?_meet hlasting, ih, lifetime_after]
    constructor
    · rintro (⟨rfl, hkind, hstored⟩ | ⟨⟨earlier, hheld, hstored⟩, hends, hasked⟩)
      · exact ⟨[], held_concat.mpr (Or.inl ⟨hpos.ne', rfl, hkind, rfl⟩), by simp [hstored, Event.duration]⟩
      · refine ⟨earlier ++ [event], held_concat.mpr (Or.inr ⟨earlier, rfl, hheld, hends, ?_⟩), ?_⟩
        · intro heq
          have hfresh := hasked heq
          omega
        · simp only [elapsed_append]
          omega
    · rintro ⟨behind, hheld, hstored⟩
      rcases held_concat.mp hheld with ⟨-, rfl, hkind, rfl⟩ | ⟨earlier, rfl, hheld, hends, hasked⟩
      · exact Or.inl ⟨rfl, hkind, by simpa [Event.duration] using hstored⟩
      · have hsince : entry.stored + elapsed earlier = start + elapsed events := by
          simp only [elapsed_append] at hstored
          omega
        refine Or.inr ⟨⟨earlier, hheld, hsince⟩, hends, ?_⟩
        intro heq
        have hfresh := hasked heq
        omega

theorem LastPut.elapsed_le (h : LastPut events kind credential behind) : elapsed behind ≤ elapsed events := by
  obtain ⟨before, hput⟩ := h.put
  rw [hput, elapsed_append, elapsed_cons]
  omega

/-- What is held is kept from the time when it was put. -/
theorem Held.kept?_eq (h : Held lifetime events kind credential behind) :
    (after lifetime start events).kept? kind = some ⟨credential, start + elapsed events - elapsed behind⟩ := by
  refine kept?_after.mpr ⟨behind, h, ?_⟩
  have hle := h.lastPut.elapsed_le
  dsimp only
  omega

/-! ## Answers -/

/-- A cache answers with the credentials of the entries that it answers with. -/
theorem get_eq_some_iff : (cache.get now kind).1 = some credential ↔
    ∃ entry, cache.Answers now kind entry ∧ entry.credential = credential := by
  rcases cache.get_cases now kind with ⟨entry, hanswers, hget⟩ | ⟨hnone, swept, hget, -⟩
  · rw [hget]
    constructor
    · intro h
      exact ⟨entry, hanswers, Option.some.inj h⟩
    · rintro ⟨other, hother, rfl⟩
      obtain rfl : entry = other := Option.some.inj (hanswers.1.symm.trans hother.1)
      rfl
  · rw [hget]
    exact ⟨nofun, fun ⟨entry, hanswers, _⟩ => absurd hanswers (hnone entry)⟩

/-- What is live is held: whoever asked for it before came in time. -/
theorem Live.held (h : Live lifetime events kind credential behind) : Held lifetime events kind credential behind := by
  refine ⟨h.lastPut, h.lasting, h.undropped, ?_⟩
  rintro early late rfl
  have hrecent := h.recent
  rw [elapsed_append] at hrecent
  omega

/-- A cache answers with what is live, and with nothing else. -/
theorem answer_eq_some_iff : answer lifetime start events kind = some credential ↔
    ∃ behind, Live lifetime events kind credential behind := by
  rw [answer, get_eq_some_iff]
  constructor
  · rintro ⟨entry, ⟨hkept, hfresh⟩, rfl⟩
    obtain ⟨behind, hheld, hstored⟩ := kept?_after.mp hkept
    rw [lifetime_after] at hfresh
    exact ⟨behind, hheld.lastPut, hheld.lasting, by omega, hheld.undropped⟩
  · rintro ⟨behind, hlive⟩
    refine ⟨_, ⟨hlive.held.kept?_eq, ?_⟩, rfl⟩
    have hle := hlive.lastPut.elapsed_le
    have hrecent := hlive.recent
    rw [lifetime_after]
    dsimp only
    omega

/-! ## Events that only ask -/

theorem elapsed_unasked (events : List Event) : elapsed (unasked events) = elapsed events := by
  induction events with
  | nil => rfl
  | cons event events ih =>
    unfold unasked at ih ⊢
    cases event with
    | get kind =>
      have htime : (Event.get kind).duration = 0 := rfl
      rw [elapsed_cons, htime, Nat.zero_add]
      exact ih
    | _ => rw [List.filter_cons_of_pos rfl, elapsed_cons, elapsed_cons, ih]

theorem mem_unasked (h : event.isGet = false) : event ∈ unasked events ↔ event ∈ events := by
  rw [unasked, List.mem_filter, h]
  exact and_iff_left rfl

/-- What is live stays so when the events that ask are left out. -/
theorem live_unasked (h : Live lifetime events kind credential behind) :
    Live lifetime (unasked events) kind credential (unasked behind) := by
  obtain ⟨⟨⟨before, rfl⟩, hkind, hlast⟩, hlasting, hrecent, hdrop, hclear⟩ := h
  refine ⟨⟨⟨unasked before, ?_⟩, hkind, ?_⟩, hlasting, ?_, ?_, ?_⟩
  · rw [unasked, List.filter_append, List.filter_cons_of_pos rfl]
    rfl
  · intro other hother
    exact hlast other ((mem_unasked rfl).mp hother)
  · rwa [elapsed_unasked]
  · rwa [mem_unasked rfl]
  · rwa [mem_unasked rfl]

/-- What is live when the events that ask are left out is live among all. -/
theorem exists_live_of_unasked (h : Live lifetime (unasked events) kind credential behind) :
    ∃ behind, Live lifetime events kind credential behind := by
  obtain ⟨⟨⟨before, hput⟩, hkind, hlast⟩, hlasting, hrecent, hdrop, hclear⟩ := h
  obtain ⟨first, second, rfl, -, hsecond⟩ := List.filter_eq_append_iff.mp hput
  obtain ⟨skipped, rest, rfl, -, -, rfl⟩ := List.filter_eq_cons_iff.mp hsecond
  change .invalidate kind ∉ unasked rest at hdrop
  change .clear ∉ unasked rest at hclear
  change elapsed (unasked rest) < lifetime at hrecent
  refine ⟨rest, ⟨⟨first ++ skipped, by simp⟩, hkind, ?_⟩, hlasting, ?_, ?_, ?_⟩
  · intro other hother
    exact hlast other ((mem_unasked rfl).mpr hother)
  · rwa [elapsed_unasked] at hrecent
  · rwa [mem_unasked rfl] at hdrop
  · rwa [mem_unasked rfl] at hclear

/-- A cache answers as if it had never been asked before. -/
theorem answer_unasked : answer lifetime start (unasked events) kind = answer lifetime start events kind := by
  refine Option.ext fun credential => ?_
  rw [answer_eq_some_iff, answer_eq_some_iff]
  exact ⟨fun ⟨_, hlive⟩ => exists_live_of_unasked hlive, fun ⟨_, hlive⟩ => ⟨_, live_unasked hlive⟩⟩

/-! ## Size -/

theorem nodup_kinds_after : ((after lifetime start events).entries.map Prod.fst).Nodup := by
  induction events using List.reverseRecOn with
  | nil => exact List.nodup_nil
  | append_singleton events event ih =>
    rw [after_concat]
    exact nodup_kinds_meet ih

/-- The kinds that a cache keeps are those of which something is held. -/
theorem mem_kinds_after : kind ∈ (after lifetime start events).entries.map Prod.fst ↔
    ∃ credential behind, Held lifetime events kind credential behind := by
  rw [← Json.isSome_lookup_iff, Option.isSome_iff_exists]
  constructor
  · rintro ⟨entry, hkept⟩
    obtain ⟨behind, hheld, -⟩ := kept?_after.mp hkept
    exact ⟨entry.credential, behind, hheld⟩
  · rintro ⟨credential, behind, hheld⟩
    exact ⟨_, hheld.kept?_eq⟩

/-- The size is the number of kinds of which something is held. -/
theorem size_after : (after lifetime start events).size =
    {kind | ∃ credential behind, Held lifetime events kind credential behind}.ncard := by
  have hkinds : {kind | ∃ credential behind, Held lifetime events kind credential behind} =
      ((after lifetime start events).entries.map Prod.fst).toFinset := by
    ext kind
    rw [List.coe_toFinset]
    exact mem_kinds_after.symm
  rw [hkinds, Set.ncard_coe_finset, List.toFinset_card_of_nodup nodup_kinds_after, List.length_map, size]

/-- A cache refines its timeline, whatever its lifetime and whatever happens to it in whatever order. Asked for a kind it answers with
a credential exactly when that is the last one of the kind that was put, the lifetime is not zero, less than it has passed since, and
neither the kind nor all was dropped since, and it answers with nothing otherwise. Events with the same ones between the questions lead
to the same answers. The size is the number of kinds that were put, with a lifetime other than zero, since they were last dropped or
asked for when their time was over. -/
theorem answers_follow_events (lifetime start : Nat) (events : List Event) :
    (∀ kind credential, answer lifetime start events kind = some credential ↔
      ∃ behind, Live lifetime events kind credential behind) ∧
    (∀ others, unasked others = unasked events → ∀ kind,
      answer lifetime start others kind = answer lifetime start events kind) ∧
    (after lifetime start events).size = {kind | ∃ credential behind, Held lifetime events kind credential behind}.ncard := by
  refine ⟨fun kind credential => answer_eq_some_iff, ?_, size_after⟩
  intro others hothers kind
  rw [← answer_unasked, hothers, answer_unasked]

end SealedConfig.CredentialCache
