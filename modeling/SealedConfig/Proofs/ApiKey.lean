import Mathlib.Data.List.Forall2
import SealedConfig.ApiKey
import SealedConfig.Proofs.Cipher.Envelope

/-!
# API keys, record by record

A record is opened by itself: whether it opens or not changes nothing about the others. One that does not open stays as it is stored
and is passed over whenever a key is looked for, so that it lets nobody in and locks nobody out.
-/

namespace SealedConfig.ApiKey

/-- Whether the secret of a record is marked and does not open. -/
def isBroken (p : Protector) (key : ApiKey) : Bool := Envelope.isMarked key.secret && !(Envelope.disclose p key.secret).isOk

/-- A record is the opened form of another: the name and the key are the same, and the secret is the opened one, if the old one is
marked and opens, and else the old one. -/
structure Discloses (p : Protector) (stored held : ApiKey) : Prop where
  name : held.name = stored.name
  key : held.key = stored.key
  opened : ∀ plain, Envelope.isMarked stored.secret = true → Envelope.disclose p stored.secret = .ok plain → held.secret = plain
  kept : (Envelope.isMarked stored.secret = true → ∀ plain, Envelope.disclose p stored.secret ≠ .ok plain) →
    held.secret = stored.secret

variable {p : Protector} {keys others : List ApiKey} {key found : ApiKey} {presentedKey presentedSecret secret : String}

/-! ## One record -/

/-- A marked secret that opens takes the place of its envelope. -/
theorem disclose_of_ok {plain : String} (hm : Envelope.isMarked key.secret = true)
    (hopen : Envelope.disclose p key.secret = .ok plain) : key.disclose p = { key with secret := plain } := by
  rw [disclose, if_pos hm, hopen]

/-- Every other secret stays as it is stored. -/
theorem disclose_eq_self (h : Envelope.isMarked key.secret = true → ∀ plain, Envelope.disclose p key.secret ≠ .ok plain) :
    key.disclose p = key := by
  rw [disclose]
  split
  · rename_i hm
    split
    · rename_i plain hplain
      exact absurd hplain (h hm plain)
    · rfl
  · rfl

theorem discloses_disclose (p : Protector) (key : ApiKey) : Discloses p key (key.disclose p) := by
  by_cases hopen : ∃ plain, Envelope.isMarked key.secret = true ∧ Envelope.disclose p key.secret = .ok plain
  · obtain ⟨plain, hm, hplain⟩ := hopen
    rw [disclose_of_ok hm hplain]
    exact ⟨rfl, rfl, fun other _ hother => Except.ok.inj (hplain.symm.trans hother), fun hkept => absurd hplain (hkept hm plain)⟩
  · have hkept (hm : Envelope.isMarked key.secret = true) (plain : String) : Envelope.disclose p key.secret ≠ .ok plain :=
      fun hplain => hopen ⟨plain, hm, hplain⟩
    rw [disclose_eq_self hkept]
    exact ⟨rfl, rfl, fun plain hm hplain => absurd hplain (hkept hm plain), fun _ => rfl⟩

/-- A broken record is marked and opens to nothing. -/
theorem isBroken_iff : key.isBroken p = true ↔
    Envelope.isMarked key.secret = true ∧ ∀ plain, Envelope.disclose p key.secret ≠ .ok plain := by
  rw [isBroken, Bool.and_eq_true]
  cases Envelope.disclose p key.secret with
  | ok plain => simp [Except.isOk, Except.toBool]
  | error fault => simp [Except.isOk, Except.toBool]

/-- A broken record stays as it is stored. -/
theorem disclose_of_isBroken (h : key.isBroken p = true) : key.disclose p = key :=
  disclose_eq_self fun _ => (isBroken_iff.mp h).2

/-- A record answers when the presented key is its own, its secret is neither empty nor marked, and the digests are equal. -/
theorem answers_iff : key.answers presentedKey presentedSecret = true ↔
    key.key = presentedKey ∧ key.secret ≠ "" ∧ Envelope.isMarked key.secret = false ∧
      digest key.secret = digest presentedSecret := by
  simp [answers, and_assoc]

/-- A broken record answers to nothing. -/
theorem answers_disclose_of_isBroken (h : key.isBroken p = true) :
    (key.disclose p).answers presentedKey presentedSecret = false := by
  rw [disclose_of_isBroken h, ← Bool.not_eq_true, answers_iff]
  rintro ⟨-, -, hm, -⟩
  exact absurd ((isBroken_iff.mp h).1.symm.trans hm) (by decide)

/-- A record with the envelope of a text that is neither empty nor marked answers to the text under its key. -/
theorem answers_disclose_of_enclose {nonce : Nonce} (h : key.secret = Envelope.enclose p nonce secret) (hne : secret ≠ "")
    (hm : Envelope.isMarked secret = false) : (key.disclose p).answers key.key secret = true := by
  have hdiscloses := discloses_disclose p key
  have hsecret : (key.disclose p).secret = secret := by
    refine hdiscloses.opened secret ?_ ?_
    · rw [h]
      exact Envelope.isMarked_enclose p nonce hne
    · rw [h]
      exact Envelope.disclose_enclose p nonce secret
  rw [answers_iff, hsecret]
  exact ⟨hdiscloses.key, hne, hm, rfl⟩

/-! ## All records -/

/-- Every record is opened by itself. -/
theorem discloses_discloseAll (p : Protector) (keys : List ApiKey) : List.Forall₂ (Discloses p) keys (discloseAll p keys) := by
  induction keys with
  | nil => exact .nil
  | cons key keys ih => exact .cons (discloses_disclose p key) ih

/-- Looking for a key passes over the broken records. -/
theorem authenticate?_sound (p : Protector) (keys : List ApiKey) (presentedKey presentedSecret : String) :
    authenticate? (discloseAll p (keys.filter fun key => !key.isBroken p)) presentedKey presentedSecret =
      authenticate? (discloseAll p keys) presentedKey presentedSecret := by
  have hpasses (key : ApiKey) : decide ((!key.isBroken p) = true ∧ (key.disclose p).answers presentedKey presentedSecret = true) =
      (key.disclose p).answers presentedKey presentedSecret := by
    cases hbroken : key.isBroken p with
    | false => simp
    | true => simp [answers_disclose_of_isBroken hbroken]
  rw [authenticate?, authenticate?, discloseAll, discloseAll, List.find?_map, List.find?_map, List.find?_filter]
  exact congrArg (fun fits => (keys.find? fits).map (disclose p)) (funext hpasses)

/-- What is found answers to what was presented, and nothing before it does. -/
theorem authenticate?_eq_some_iff : authenticate? keys presentedKey presentedSecret = some found ↔
    found.answers presentedKey presentedSecret = true ∧
      ∃ before behind, keys = before ++ found :: behind ∧ ∀ other ∈ before, other.answers presentedKey presentedSecret = false := by
  simp [authenticate?, List.find?_eq_some_iff_append]

/-- A broken record is never found. -/
theorem authenticate?_ne_of_isBroken (h : key.isBroken p = true) : authenticate? keys presentedKey presentedSecret ≠ some key := by
  intro hfound
  obtain ⟨hanswers, -⟩ := authenticate?_eq_some_iff.mp hfound
  rw [← disclose_of_isBroken h, answers_disclose_of_isBroken h] at hanswers
  cases hanswers

/-- What is found is the first record with the presented key and an equal digest, but for records that let nobody in: those with a
secret that is empty or still marked, and is another text of the same digest. -/
structure IsFirst (keys : List ApiKey) (presentedKey presentedSecret : String) (found : ApiKey) : Prop where
  key : found.key = presentedKey
  digest : digest found.secret = digest presentedSecret
  first : ∃ before behind, keys = before ++ found :: behind ∧ ∀ other ∈ before, other.key = presentedKey →
    ApiKey.digest other.secret = ApiKey.digest presentedSecret →
      other.secret ≠ presentedSecret ∧ (other.secret = "" ∨ Envelope.isMarked other.secret = true)

/-- A key that some record answers to is found, and what is found is the first such record. -/
theorem exists_isFirst (hmem : key ∈ keys) (hanswers : key.answers presentedKey secret = true) (hne : secret ≠ "")
    (hm : Envelope.isMarked secret = false) :
    ∃ found, authenticate? keys presentedKey secret = some found ∧ IsFirst keys presentedKey secret found := by
  obtain ⟨found, hfound⟩ : ∃ found, authenticate? keys presentedKey secret = some found :=
    Option.isSome_iff_exists.mp (List.find?_isSome.mpr ⟨key, hmem, hanswers⟩)
  obtain ⟨hfits, before, behind, hsplit, hbefore⟩ := authenticate?_eq_some_iff.mp hfound
  obtain ⟨hkey, -, -, hdigest⟩ := answers_iff.mp hfits
  refine ⟨found, hfound, hkey, hdigest, before, behind, hsplit, ?_⟩
  intro other hother hotherKey hotherDigest
  have hshut : other.secret = "" ∨ Envelope.isMarked other.secret = true := by
    by_cases hempty : other.secret = ""
    · exact Or.inl hempty
    · refine Or.inr ?_
      rw [← Bool.not_eq_false]
      intro hplain
      have hfits : other.answers presentedKey secret = true := answers_iff.mpr ⟨hotherKey, hempty, hplain, hotherDigest⟩
      rw [hbefore other hother] at hfits
      cases hfits
  refine ⟨?_, hshut⟩
  rintro rfl
  rcases hshut with hempty | hmarked
  · exact hne hempty
  · exact absurd (hm.symm.trans hmarked) (by decide)

/-- API keys fail record by record. Opening keeps the records in their number and order, each with its name and its key, and with a
secret that depends on its own stored one alone. So whatever broken records stand among others, and wherever, what is found is the
same for every key and secret that is presented, and never one of the broken records, which stay as they are stored. A record with
the envelope of a text that is neither empty nor marked lets in who presents its key and the text. -/
theorem failsByRecord (p : Protector) (keys : List ApiKey) :
    List.Forall₂ (Discloses p) keys (discloseAll p keys) ∧
    (∀ others : List ApiKey, (others.filter fun key => !key.isBroken p) = keys.filter (fun key => !key.isBroken p) →
      ∀ presentedKey presentedSecret, authenticate? (discloseAll p others) presentedKey presentedSecret =
        authenticate? (discloseAll p keys) presentedKey presentedSecret) ∧
    (∀ key : ApiKey, key.isBroken p = true → key.disclose p = key ∧
      ∀ presentedKey presentedSecret, authenticate? (discloseAll p keys) presentedKey presentedSecret ≠ some key) ∧
    ∀ key ∈ keys, ∀ nonce secret, key.secret = Envelope.enclose p nonce secret → secret ≠ "" → Envelope.isMarked secret = false →
      ∃ found, authenticate? (discloseAll p keys) key.key secret = some found ∧ IsFirst (discloseAll p keys) key.key secret found := by
  refine ⟨discloses_discloseAll p keys, ?_, ?_, ?_⟩
  · intro others hothers presentedKey presentedSecret
    rw [← authenticate?_sound, hothers, authenticate?_sound]
  · intro key hbroken
    exact ⟨disclose_of_isBroken hbroken, fun _ _ => authenticate?_ne_of_isBroken hbroken⟩
  · intro key hkey nonce secret hsecret hne hm
    exact exists_isFirst (List.mem_map_of_mem hkey) (answers_disclose_of_enclose hsecret hne hm) hne hm

end SealedConfig.ApiKey
