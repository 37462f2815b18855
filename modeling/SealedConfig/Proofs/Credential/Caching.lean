import SealedConfig.Proofs.Credential.Deciding
import SealedConfig.Proofs.Credential.Opening
import SealedConfig.Proofs.Credential.Report

/-!
# Credentials found through a cache

What a resolver answers in the course of time. What was found by looking anew is answered again for less than the lifetime of the
cache, unless it is dropped on request and whatever becomes of the host; in all other cases the answer is what looking anew gives.
-/

namespace SealedConfig

open Run

/-! ## What a cache keeps -/

namespace CredentialCache

variable {cache : CredentialCache} {kind other : CredentialKind} {now : Nat} {entry : CacheEntry} {credential : Credential}

/-- What a cache keeps of a kind, fresh or not. -/
def kept? (cache : CredentialCache) (kind : CredentialKind) : Option CacheEntry := cache.entries.lookup kind

/-- A cache that answers with an entry at a time. -/
def Answers (cache : CredentialCache) (now : Nat) (kind : CredentialKind) (entry : CacheEntry) : Prop :=
  cache.kept? kind = some entry ∧ now - entry.stored < cache.lifetime

theorem lookup_without_self (kind : CredentialKind) (entries : List (CredentialKind × CacheEntry)) :
    (without kind entries).lookup kind = none := by
  rw [List.lookup_eq_none_iff]
  intro entry hentry
  have hne : entry.1 ≠ kind := bne_iff_ne.mp (List.mem_filter.mp hentry).2
  exact bne_iff_ne.mpr hne.symm

theorem lookup_without_of_ne (h : other ≠ kind) (entries : List (CredentialKind × CacheEntry)) :
    (without kind entries).lookup other = entries.lookup other := by
  induction entries with
  | nil => rfl
  | cons entry entries ih =>
    unfold without at ih ⊢
    by_cases heq : entry.1 = kind
    · have hne : (other == entry.1) = false := by simpa [heq] using h
      rw [List.filter_cons_of_neg (by simpa using heq), ih, List.lookup, hne]
    · rw [List.filter_cons_of_pos (by simpa using heq), List.lookup, List.lookup, ih]

@[simp] theorem kept?_empty (lifetime : Nat) : (empty lifetime).kept? kind = none := rfl

@[simp] theorem kept?_clear : cache.clear.kept? kind = none := rfl

@[simp] theorem kept?_invalidate_self : (cache.invalidate kind).kept? kind = none := lookup_without_self kind cache.entries

theorem kept?_invalidate_of_ne (h : other ≠ kind) : (cache.invalidate kind).kept? other = cache.kept? other :=
  lookup_without_of_ne h cache.entries

/-- A cache with a lifetime keeps what it is given, from then on. -/
theorem kept?_put_self (h : cache.lifetime ≠ 0) : (cache.put now credential).kept? credential.kind = some ⟨credential, now⟩ := by
  rw [put, if_neg h]
  exact List.lookup_cons_self

theorem kept?_put_of_ne (h : other ≠ credential.kind) : (cache.put now credential).kept? other = cache.kept? other := by
  rw [put]
  split
  · rfl
  · have hne : (other == credential.kind) = false := by simpa using h
    rw [kept?, List.lookup, hne]
    exact lookup_without_of_ne h cache.entries

@[simp] theorem lifetime_put : (cache.put now credential).lifetime = cache.lifetime := by
  rw [put]
  split <;> rfl

/-! ## Asking a cache -/

theorem get_of_answers (h : cache.Answers now kind entry) : cache.get now kind = (some entry.credential, cache) := by
  obtain ⟨hkept, hfresh⟩ := h
  rw [get, show cache.entries.lookup kind = some entry from hkept]
  exact if_pos hfresh

/-- A cache gives the credential of an entry that it answers with, or gives nothing and keeps nothing of the kind. -/
theorem get_cases (cache : CredentialCache) (now : Nat) (kind : CredentialKind) :
    (∃ entry, cache.Answers now kind entry ∧ cache.get now kind = (some entry.credential, cache)) ∨
      ((∀ entry, ¬cache.Answers now kind entry) ∧ ∃ swept, cache.get now kind = (none, swept) ∧ swept.lifetime = cache.lifetime ∧
        swept.kept? kind = none ∧ ∀ other, other ≠ kind → swept.kept? other = cache.kept? other) := by
  cases hkept : cache.kept? kind with
  | none =>
    refine Or.inr ⟨?_, cache, ?_, rfl, hkept, fun _ _ => rfl⟩
    · rintro entry ⟨hentry, -⟩
      simp [hkept] at hentry
    · rw [get, show cache.entries.lookup kind = none from hkept]
  | some entry =>
    by_cases hfresh : now - entry.stored < cache.lifetime
    · exact Or.inl ⟨entry, ⟨hkept, hfresh⟩, get_of_answers ⟨hkept, hfresh⟩⟩
    · refine Or.inr ⟨?_, cache.invalidate kind, ?_, rfl, kept?_invalidate_self, fun _ hne => kept?_invalidate_of_ne hne⟩
      · rintro found ⟨hfound, hlater⟩
        obtain rfl : entry = found := Option.some.inj (hkept.symm.trans hfound)
        exact hfresh hlater
      · rw [get, show cache.entries.lookup kind = some entry from hkept]
        exact if_neg hfresh

/-- A cache gives nothing exactly when it answers with no entry. -/
theorem get_eq_none_iff : (cache.get now kind).1 = none ↔ ∀ entry, ¬cache.Answers now kind entry := by
  rcases cache.get_cases now kind with ⟨entry, hanswers, hget⟩ | ⟨hnone, swept, hget, -⟩
  · rw [hget]
    exact ⟨nofun, fun h => absurd hanswers (h entry)⟩
  · rw [hget]
    exact ⟨fun _ => hnone, fun _ => rfl⟩

end CredentialCache

namespace Resolver

/-! ## Requests one after the other -/

/-- What a resolver is asked to do, or what goes on beside it: time passes, and anything else on the host may change. -/
inductive Request where
  | find (kind : CredentialKind)
  | findCached (kind : CredentialKind)
  | health (kind : CredentialKind)
  | invalidate (kind : CredentialKind)
  | clear
  | wait (milliseconds : Nat) (change : World → World)

/-- What a request comes to. -/
inductive Answer where
  | found (result : Except Failure Credential)
  | reported (health : Health)
  | done

/-- What a request finds: what is kept, and the world. -/
structure Scene where
  cache : CredentialCache
  world : World

/-- The answer to a request, and what the next one finds. -/
def serve (resolver : Resolver) (scene : Scene) : Request → Answer × Scene
  | .find kind =>
    let (result, after) := outcome (resolver.find kind) scene.world
    (.found result, ⟨scene.cache, after⟩)
  | .findCached kind =>
    let ((result, cache), after) :=
      (resolver.findCached scene.cache kind : StateM World (Except Failure Credential × CredentialCache)) scene.world
    (.found result, ⟨cache, after⟩)
  | .health kind =>
    let (health, after) := (resolver.health kind : StateM World Health) scene.world
    (.reported health, ⟨scene.cache, after⟩)
  | .invalidate kind => (.done, ⟨scene.cache.invalidate kind, scene.world⟩)
  | .clear => (.done, ⟨scene.cache.clear, scene.world⟩)
  | .wait milliseconds change =>
    (.done, ⟨scene.cache, { change scene.world with ticks := scene.world.ticks + milliseconds }⟩)

section

variable (resolver : Resolver) (start : World) (course : Nat → Request)

/-- What each request of a course finds; the first finds a cache that keeps nothing. -/
def sceneAt : Nat → Scene
  | 0 => ⟨resolver.freshCache, start⟩
  | n + 1 => (resolver.serve (sceneAt n) (course n)).2

/-- What each request of a course comes to. -/
def answerAt (n : Nat) : Answer := (resolver.serve (resolver.sceneAt start course n) (course n)).1

/-- A request of a course found a credential by looking anew, and not in the cache. -/
structure Gained (kind : CredentialKind) (credential : Credential) (i : Nat) : Prop where
  asked : course i = .findCached kind
  anew : ((resolver.sceneAt start course i).cache.get (resolver.sceneAt start course i).world.ticks kind).1 = none
  found : resolver.answerAt start course i = .found (.ok credential)

/-- From a request to a later one of a course nothing of a kind is dropped on request. -/
def Undropped (kind : CredentialKind) (i n : Nat) : Prop :=
  i < n ∧ ∀ j, i < j → j < n → course j ≠ .invalidate kind ∧ course j ≠ .clear

/-- A credential that an earlier request of a course gained is live at a later one: it was not dropped on request since, and the time
that has passed is less than the lifetime of the cache. -/
structure Live (kind : CredentialKind) (credential : Credential) (i n : Nat) : Prop where
  gained : resolver.Gained start course kind credential i
  undropped : Undropped course kind i n
  recent : (resolver.sceneAt start course n).world.ticks - (resolver.sceneAt start course i).world.ticks <
    resolver.settings.cacheSeconds * 1000

end

variable {resolver : Resolver} {start : World} {course : Nat → Request} {scene : Scene} {request : Request} {kind : CredentialKind}
  {credential : Credential} {entry : CacheEntry} {i n : Nat}

/-! ## One request -/

/-- A request for a credential through the cache is answered with what the cache keeps, and nothing changes. -/
theorem serve_of_answers (h : scene.cache.Answers scene.world.ticks kind entry) :
    resolver.serve scene (.findCached kind) = (.found (.ok entry.credential), scene) := by
  rw [serve, findCached_run, CredentialCache.get_of_answers h]

/-- Otherwise it is answered with what looking anew gives; a credential that is found is kept, and after a failure nothing is. -/
theorem serve_anew (resolver : Resolver) (h : (scene.cache.get scene.world.ticks kind).1 = none) :
    (resolver.serve scene (.findCached kind)).1 = .found (outcome (resolver.find kind) scene.world).1 ∧
      (resolver.serve scene (.findCached kind)).2.world = (outcome (resolver.find kind) scene.world).2 ∧
      (resolver.serve scene (.findCached kind)).2.cache.kept? kind =
        match (outcome (resolver.find kind) scene.world).1 with
        | .ok credential => if scene.cache.lifetime = 0 then none else some ⟨credential, scene.world.ticks⟩
        | .error _ => none := by
  rcases scene.cache.get_cases scene.world.ticks kind with ⟨entry, -, hget⟩ | ⟨-, swept, hget, hlife, hkept, -⟩
  · simp [hget] at h
  rw [serve, findCached_run, hget]
  dsimp only
  have hticks := (resolver.onlyTells_find kind).ticks scene.world
  rcases hfind : outcome (resolver.find kind) scene.world with ⟨failure | credential, after⟩
  · exact ⟨rfl, rfl, hkept⟩
  · rw [hfind] at hticks
    obtain rfl : credential.kind = kind := kind_of_find (u := scene.world) (by rw [hfind])
    refine ⟨rfl, rfl, ?_⟩
    dsimp only at hticks ⊢
    split
    · rename_i hzero
      rw [CredentialCache.put, if_pos (hlife.trans hzero), hkept]
    · rename_i hlasting
      rw [CredentialCache.kept?_put_self (hlife ▸ hlasting), hticks]

/-- What is kept of a kind stays over every request that neither looks for it nor drops it. -/
theorem kept?_serve_of_ne (hfind : request ≠ .findCached kind) (hdrop : request ≠ .invalidate kind) (hclear : request ≠ .clear) :
    (resolver.serve scene request).2.cache.kept? kind = scene.cache.kept? kind := by
  cases request with
  | find other => rfl
  | health other => rfl
  | wait milliseconds change => rfl
  | clear => exact absurd rfl hclear
  | invalidate other =>
    have hne : kind ≠ other := fun heq => hdrop (heq ▸ rfl)
    exact CredentialCache.kept?_invalidate_of_ne hne
  | findCached other =>
    have hne : kind ≠ other := fun heq => hfind (heq ▸ rfl)
    rw [serve, findCached_run]
    rcases scene.cache.get_cases scene.world.ticks other with ⟨entry, -, hget⟩ | ⟨-, swept, hget, -, -, hothers⟩
    · rw [hget]
    · rw [hget]
      dsimp only
      rcases hfound : outcome (resolver.find other) scene.world with ⟨failure | credential, after⟩
      · exact hothers kind hne
      · obtain rfl : credential.kind = other := kind_of_find (u := scene.world) (by rw [hfound])
        exact (CredentialCache.kept?_put_of_ne hne).trans (hothers kind hne)

/-- What is kept of a kind after a request was found by it, which looked anew, or was kept before and not dropped by it. -/
theorem kept?_serve_cases (h : (resolver.serve scene request).2.cache.kept? kind = some entry) :
    (request = .findCached kind ∧ (scene.cache.get scene.world.ticks kind).1 = none ∧
        (resolver.serve scene request).1 = .found (.ok entry.credential) ∧ entry.stored = scene.world.ticks) ∨
      scene.cache.kept? kind = some entry ∧ request ≠ .invalidate kind ∧ request ≠ .clear := by
  by_cases hasked : request = .findCached kind
  · subst hasked
    rcases scene.cache.get_cases scene.world.ticks kind with ⟨found, hanswers, -⟩ | ⟨-, swept, hget, -⟩
    · rw [serve_of_answers hanswers] at h
      exact Or.inr ⟨h, nofun, nofun⟩
    · have hanew : (scene.cache.get scene.world.ticks kind).1 = none := by rw [hget]
      obtain ⟨hanswer, -, hafter⟩ := resolver.serve_anew hanew
      rw [hafter] at h
      cases hresult : (outcome (resolver.find kind) scene.world).1 with
      | error failure =>
        rw [hresult] at h
        cases h
      | ok credential =>
        rw [hresult] at h hanswer
        dsimp only at h
        split at h
        · cases h
        · obtain rfl := Option.some.inj h
          exact Or.inl ⟨rfl, hanew, hanswer, rfl⟩
  · have hdrop : request ≠ .invalidate kind := by
      rintro rfl
      cases CredentialCache.kept?_invalidate_self.symm.trans h
    have hclear : request ≠ .clear := by
      rintro rfl
      cases h
    rw [kept?_serve_of_ne hasked hdrop hclear] at h
    exact Or.inr ⟨h, hdrop, hclear⟩

theorem lifetime_serve : (resolver.serve scene request).2.cache.lifetime = scene.cache.lifetime := by
  cases request with
  | findCached kind =>
    rw [serve, findCached_run]
    rcases scene.cache.get_cases scene.world.ticks kind with ⟨entry, -, hget⟩ | ⟨-, swept, hget, hlife, -⟩
    · rw [hget]
    · rw [hget]
      dsimp only
      rcases outcome (resolver.find kind) scene.world with ⟨failure | credential, after⟩
      · exact hlife
      · exact CredentialCache.lifetime_put.trans hlife
  | find kind => rfl
  | health kind => rfl
  | invalidate kind => rfl
  | clear => rfl
  | wait milliseconds change => rfl

/-- No request turns the clock back. -/
theorem ticks_le_serve : scene.world.ticks ≤ (resolver.serve scene request).2.world.ticks := by
  cases request with
  | find kind => exact ((resolver.onlyTells_find kind).ticks scene.world).ge
  | health kind => exact ((resolver.onlyTells_health kind).ticks scene.world).ge
  | invalidate kind => exact le_rfl
  | clear => exact le_rfl
  | wait milliseconds change => exact Nat.le_add_right _ _
  | findCached kind =>
    cases hget : (scene.cache.get scene.world.ticks kind).1 with
    | none =>
      rw [(resolver.serve_anew hget).2.1]
      exact ((resolver.onlyTells_find kind).ticks scene.world).ge
    | some credential =>
      rcases scene.cache.get_cases scene.world.ticks kind with ⟨entry, hanswers, -⟩ | ⟨-, swept, hswept, -⟩
      · rw [serve_of_answers hanswers]
      · simp [hswept] at hget

/-! ## A course of requests -/

theorem lifetime_sceneAt (resolver : Resolver) (start : World) (course : Nat → Request) (n : Nat) :
    (resolver.sceneAt start course n).cache.lifetime = resolver.settings.cacheSeconds * 1000 := by
  induction n with
  | zero => rfl
  | succ n ih => exact lifetime_serve.trans ih

theorem ticks_mono (resolver : Resolver) (start : World) (course : Nat → Request) :
    Monotone fun n => (resolver.sceneAt start course n).world.ticks :=
  monotone_nat_of_le_succ fun _ => ticks_le_serve

/-- Nothing is dropped on request up to the next request, when this one drops nothing. -/
theorem Undropped.succ (h : Undropped course kind i n) (hdrop : course n ≠ .invalidate kind) (hclear : course n ≠ .clear) :
    Undropped course kind i (n + 1) := by
  refine ⟨Nat.lt_succ_of_lt h.1, ?_⟩
  intro j hij hj
  rcases Nat.lt_succ_iff_lt_or_eq.mp hj with hjn | rfl
  · exact h.2 j hij hjn
  · exact ⟨hdrop, hclear⟩

/-- What is live at a request was live at those before it, back to the one that gained it. -/
theorem Live.earlier {later : Nat} (h : resolver.Live start course kind credential i later) (hle : n ≤ later) (hlt : i < n) :
    resolver.Live start course kind credential i n := by
  refine ⟨h.gained, ⟨hlt, fun j hij hjn => h.undropped.2 j hij (Nat.lt_of_lt_of_le hjn hle)⟩, ?_⟩
  have hticks := ticks_mono resolver start course hle
  have hrecent := h.recent
  dsimp only at hticks
  omega

/-- A live credential is what the cache keeps, from the time when it was gained. -/
theorem Live.kept? (h : resolver.Live start course kind credential i n) :
    (resolver.sceneAt start course n).cache.kept? kind = some ⟨credential, (resolver.sceneAt start course i).world.ticks⟩ := by
  induction n with
  | zero => exact absurd h.undropped.1 (Nat.not_lt_zero i)
  | succ n ih =>
    rcases Nat.lt_succ_iff_lt_or_eq.mp h.undropped.1 with hlt | rfl
    · have hlive := h.earlier (Nat.le_succ n) hlt
      have hkept := ih hlive
      obtain ⟨hdrop, hclear⟩ := h.undropped.2 n hlt (Nat.lt_succ_self n)
      change (resolver.serve _ (course n)).2.cache.kept? kind = _
      by_cases hasked : course n = .findCached kind
      · -- it is still fresh, so the request changes nothing
        have hanswers : CredentialCache.Answers _ _ kind _ := ⟨hkept, by simpa [lifetime_sceneAt] using hlive.recent⟩
        rw [hasked, serve_of_answers hanswers]
        exact hkept
      · rw [kept?_serve_of_ne hasked hdrop hclear]
        exact hkept
    · obtain ⟨hasked, hanew, hfound⟩ := h.gained
      obtain ⟨hanswer, -, hafter⟩ := resolver.serve_anew hanew
      rw [answerAt, hasked, hanswer] at hfound
      have hlasting : (resolver.sceneAt start course i).cache.lifetime ≠ 0 := by
        have hrecent := h.recent
        rw [lifetime_sceneAt]
        omega
      change (resolver.serve _ (course i)).2.cache.kept? kind = _
      rw [hasked, hafter, Answer.found.inj hfound]
      exact if_neg hlasting

/-- What the cache keeps was gained by a request and not dropped since. -/
theorem exists_gained (h : (resolver.sceneAt start course n).cache.kept? kind = some entry) :
    ∃ i, resolver.Gained start course kind entry.credential i ∧ Undropped course kind i n ∧
      entry.stored = (resolver.sceneAt start course i).world.ticks := by
  induction n with
  | zero => cases h
  | succ n ih =>
    change (resolver.serve _ (course n)).2.cache.kept? kind = some entry at h
    rcases kept?_serve_cases h with ⟨hasked, hanew, hfound, hstored⟩ | ⟨hkept, hdrop, hclear⟩
    · exact ⟨n, ⟨hasked, hanew, hfound⟩, ⟨Nat.lt_succ_self n, fun j hnj hj => absurd hnj (by omega)⟩, hstored⟩
    · obtain ⟨i, hgained, hundropped, hstored⟩ := ih hkept
      exact ⟨i, hgained, hundropped.succ hdrop hclear, hstored⟩

/-- A cache answers exactly with what is live. -/
theorem answers_iff_live :
    (∃ entry, (resolver.sceneAt start course n).cache.Answers (resolver.sceneAt start course n).world.ticks kind entry ∧
      entry.credential = credential) ↔ ∃ i, resolver.Live start course kind credential i n := by
  constructor
  · rintro ⟨entry, ⟨hkept, hfresh⟩, rfl⟩
    obtain ⟨i, hgained, hundropped, hstored⟩ := exists_gained hkept
    refine ⟨i, hgained, hundropped, ?_⟩
    rwa [hstored, lifetime_sceneAt] at hfresh
  · rintro ⟨i, hlive⟩
    exact ⟨_, ⟨hlive.kept?, by simpa [lifetime_sceneAt] using hlive.recent⟩, rfl⟩

/-- Nothing is live at a request that the cache has no answer to. -/
theorem get_eq_none_iff_not_live :
    ((resolver.sceneAt start course n).cache.get (resolver.sceneAt start course n).world.ticks kind).1 = none ↔
      ∀ i credential, ¬resolver.Live start course kind credential i n := by
  rw [CredentialCache.get_eq_none_iff]
  constructor
  · intro hnone i credential hlive
    obtain ⟨entry, hanswers, -⟩ := answers_iff_live.mpr ⟨i, hlive⟩
    exact hnone entry hanswers
  · intro hdead entry hanswers
    obtain ⟨i, hlive⟩ := answers_iff_live.mp ⟨entry, hanswers, rfl⟩
    exact hdead i entry.credential hlive

/-- A request for which nothing is live is answered by looking anew. -/
theorem answer_of_not_live (hasked : course n = .findCached kind)
    (hdead : ∀ i credential, ¬resolver.Live start course kind credential i n) :
    resolver.answerAt start course n = .found (outcome (resolver.find kind) (resolver.sceneAt start course n).world).1 ∧
      (resolver.sceneAt start course (n + 1)).world =
        (outcome (resolver.find kind) (resolver.sceneAt start course n).world).2 := by
  obtain ⟨hanswer, hworld, -⟩ := resolver.serve_anew (get_eq_none_iff_not_live.mpr hdead)
  rw [answerAt, sceneAt, hasked]
  exact ⟨hanswer, hworld⟩

/-- A request for which something is live is answered with it, and nothing changes. -/
theorem answer_of_live (hasked : course n = .findCached kind) (hlive : resolver.Live start course kind credential i n) :
    resolver.answerAt start course n = .found (.ok credential) ∧
      resolver.sceneAt start course (n + 1) = resolver.sceneAt start course n := by
  obtain ⟨entry, hanswers, rfl⟩ := answers_iff_live.mpr ⟨i, hlive⟩
  rw [answerAt, sceneAt, hasked, serve_of_answers hanswers]
  exact ⟨rfl, rfl⟩

/-- A request that fails was one for which nothing is live, and it leaves nothing of its kind. -/
theorem of_answer_error {failure : Failure} (hasked : course n = .findCached kind)
    (hfailed : resolver.answerAt start course n = .found (.error failure)) :
    (∀ i credential, ¬resolver.Live start course kind credential i n) ∧
      (resolver.sceneAt start course (n + 1)).cache.kept? kind = none := by
  have hdead (i : Nat) (credential : Credential) : ¬resolver.Live start course kind credential i n := by
    intro hlive
    rw [(answer_of_live hasked hlive).1] at hfailed
    cases hfailed
  refine ⟨hdead, ?_⟩
  obtain ⟨hanswer, -, hkept⟩ := resolver.serve_anew (get_eq_none_iff_not_live.mpr hdead)
  rw [answerAt, hasked, hanswer] at hfailed
  rw [sceneAt, hasked, hkept, Answer.found.inj hfailed]

/-- Finding credentials through a cache is bounded by its lifetime, and failures are never kept. Over every course of requests and
changes of the host a request through the cache is answered with what is live, with nothing changed, whatever the host looks like by
then; when nothing is live it is answered with what looking anew gives at that moment. After a failure nothing of the kind is kept, and
requests are answered by looking anew until one of them succeeds. Looking anew and reporting leave the cache as it is. With a lifetime
of zero every request is answered by looking anew. -/
theorem findCached_bounded (resolver : Resolver) (start : World) (course : Nat → Request) (kind : CredentialKind) (n : Nat) :
    (course n = .findCached kind →
      (∀ i credential, resolver.Live start course kind credential i n →
        resolver.answerAt start course n = .found (.ok credential) ∧
          resolver.sceneAt start course (n + 1) = resolver.sceneAt start course n) ∧
      ((∀ i credential, ¬resolver.Live start course kind credential i n) →
        resolver.answerAt start course n = .found (outcome (resolver.find kind) (resolver.sceneAt start course n).world).1 ∧
          (resolver.sceneAt start course (n + 1)).world =
            (outcome (resolver.find kind) (resolver.sceneAt start course n).world).2) ∧
      (∀ failure, resolver.answerAt start course n = .found (.error failure) →
        (resolver.sceneAt start course (n + 1)).cache.kept? kind = none ∧
          ∀ later, n < later → course later = .findCached kind →
            (∀ j, n < j → j < later → course j = .findCached kind → ∀ credential,
              resolver.answerAt start course j ≠ .found (.ok credential)) →
            resolver.answerAt start course later =
              .found (outcome (resolver.find kind) (resolver.sceneAt start course later).world).1) ∧
      (resolver.settings.cacheSeconds = 0 →
        resolver.answerAt start course n =
          .found (outcome (resolver.find kind) (resolver.sceneAt start course n).world).1)) ∧
    (course n = .find kind →
      resolver.answerAt start course n = .found (outcome (resolver.find kind) (resolver.sceneAt start course n).world).1 ∧
        (resolver.sceneAt start course (n + 1)).cache = (resolver.sceneAt start course n).cache) ∧
    (course n = .health kind →
      (resolver.sceneAt start course (n + 1)).cache = (resolver.sceneAt start course n).cache) := by
  refine ⟨fun hasked => ⟨?_, ?_, ?_, ?_⟩, ?_, ?_⟩
  · intro i credential hlive
    exact answer_of_live hasked hlive
  · exact answer_of_not_live hasked
  · intro failure hfailed
    obtain ⟨hdead, hkept⟩ := of_answer_error hasked hfailed
    refine ⟨hkept, ?_⟩
    intro later hlt hlater hfailures
    refine (answer_of_not_live hlater ?_).1
    intro i credential hlive
    rcases Nat.lt_or_ge i n with hearlier | hge
    · exact hdead i credential (hlive.earlier hlt.le hearlier)
    · rcases Nat.lt_or_eq_of_le hge with hbetween | rfl
      · exact hfailures i hbetween hlive.undropped.1 hlive.gained.asked credential hlive.gained.found
      · cases hfailed.symm.trans hlive.gained.found
  · intro hzero
    refine (answer_of_not_live hasked ?_).1
    intro i credential hlive
    simpa [hzero] using hlive.recent
  · intro hasked
    rw [answerAt, sceneAt, hasked]
    exact ⟨rfl, rfl⟩
  · intro hasked
    rw [sceneAt, hasked]
    rfl

/-- A resolver that keeps credentials for a second, over a host without a document. -/
def briefResolver : Resolver := ⟨.host none, none, { cacheSeconds := 1 }⟩

/-- A world with a certificate in a variable. -/
def variableWorld : World where
  files := ⟨[]⟩
  here := []
  environment := [("SIGNING_CERTIFICATE", "pem")]
  fallbackHome := none
  now := none
  ticks := 0
  randomness _ := 0
  drawn := 0
  input := []
  output := ""
  complaints := ""
  filter := .silent

/-- The certificate is asked for; the variable goes; it is asked for again at the last moment of its life and right after. -/
def sampleCourse : Nat → Request
  | 0 => .findCached .certificate
  | 1 => .wait 999 fun w => w.setEnvValue "SIGNING_CERTIFICATE" none
  | 2 => .findCached .certificate
  | 3 => .wait 1 id
  | _ => .findCached .certificate

/-- Over that course the certificate is answered until its life is over, and then it is missed. -/
theorem findCached_bounded_boundary :
    briefResolver.answerAt variableWorld sampleCourse 2 =
        .found (.ok ⟨.certificate, .environment "SIGNING_CERTIFICATE", "pem"⟩) ∧
      briefResolver.answerAt variableWorld sampleCourse 4 =
        .found (.error (.credential (.notFound .certificate
          ["env SIGNING_CERTIFICATE", "secret file SIGNING_CERTIFICATE_FILE", "Signing:CertificatePath (unset)"]))) := by
  have hanswers (n : Nat) := findCached_bounded briefResolver variableWorld sampleCourse .certificate n
  constructor
  · refine (((hanswers 2).1 rfl).1 0 _ ⟨⟨rfl, by rfl, by rfl⟩, ⟨by decide, ?_⟩, by decide⟩).1
    intro j hj hlt
    obtain rfl : j = 1 := by omega
    exact ⟨nofun, nofun⟩
  · rw [(((hanswers 4).1 rfl).2.1 (get_eq_none_iff_not_live.mp (by rfl))).1]
    rfl

end Resolver

end SealedConfig
