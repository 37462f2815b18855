import SealedConfig.Json.Basic
import SealedConfig.KeyPath

/-!
# The texts of a tree

The texts that are reached from the root of a tree through objects only, by paths of keys taken literally, and the tree with
some of them replaced. Replacing texts keeps every key and its place. The pairs of an object's text make members of which each
key occurs once and has its last value.
-/

namespace SealedConfig.Json

/-- The text at the end of a path of keys, each taken literally. -/
def textAt? : Json → KeyPath → Option String
  | .string text, [] => some text
  | .object members, key :: path => (members.lookup key).bind fun child => child.textAt? path
  | _, _ => none

mutual

/-- The tree with other texts at the paths that have one. -/
def withTexts : Json → (KeyPath → Option String) → Json
  | .string text, texts => .string ((texts []).getD text)
  | .object members, texts => .object (membersWithTexts members texts)
  | node, _ => node

/-- The members of an object with other texts at the paths that have one. -/
def membersWithTexts : List (String × Json) → (KeyPath → Option String) → List (String × Json)
  | [], _ => []
  | (key, value) :: members, texts =>
    (key, value.withTexts fun path => texts (key :: path)) :: membersWithTexts members texts

end

mutual

/-- Every object that is reached through objects only has each key once. -/
def HasDistinctKeys : Json → Prop
  | .object members => (members.map Prod.fst).Nodup ∧ MembersHaveDistinctKeys members
  | _ => True

/-- Every object that is reached from members through objects only has each key once. -/
def MembersHaveDistinctKeys : List (String × Json) → Prop
  | [] => True
  | (_, value) :: members => value.HasDistinctKeys ∧ MembersHaveDistinctKeys members

end

/-! ## Look-up among pairs -/

section

variable {κ α : Type} [BEq κ] [LawfulBEq κ] {pairs : List (κ × α)} {key : κ}

/-- Nothing is found under a key that no pair has. -/
theorem lookup_eq_none (h : key ∉ pairs.map Prod.fst) : pairs.lookup key = none := by
  rw [List.lookup_eq_none_iff]
  intro pair hp
  have hne : key ≠ pair.1 := by
    rintro rfl
    exact h (List.mem_map_of_mem hp)
  simpa using hne

/-- A value is found exactly under the keys of the pairs. -/
theorem isSome_lookup_iff : (pairs.lookup key).isSome ↔ key ∈ pairs.map Prod.fst := by
  rw [List.lookup_isSome_iff, List.mem_map]
  simp only [beq_iff_eq, eq_comm (a := key)]

/-- What is found is among the pairs. -/
theorem mem_of_lookup {value : α} (h : pairs.lookup key = some value) : (key, value) ∈ pairs := by
  obtain ⟨before, after, rfl, -⟩ := List.lookup_eq_some_iff.mp h
  exact List.mem_append_right _ List.mem_cons_self

/-- A pair is the one found under its key when no key occurs twice. -/
theorem lookup_of_mem (hd : (pairs.map Prod.fst).Nodup) {value : α} (hm : (key, value) ∈ pairs) :
    pairs.lookup key = some value := by
  induction pairs with
  | nil => cases hm
  | cons pair pairs ih =>
    obtain ⟨hnew, hd⟩ := List.nodup_cons.mp hd
    rcases List.mem_cons.mp hm with rfl | hm
    · simp
    · have hne : key ≠ pair.1 := by
        rintro rfl
        exact hnew (List.mem_map.mpr ⟨_, hm, rfl⟩)
      rw [List.lookup_cons, show (key == pair.1) = false from beq_eq_false_iff_ne.mpr hne]
      exact ih hd hm

/-- Without keys that occur twice, what is found under a key is what is paired with it. -/
theorem lookup_eq_some_iff_mem (hd : (pairs.map Prod.fst).Nodup) {value : α} :
    pairs.lookup key = some value ↔ (key, value) ∈ pairs :=
  ⟨mem_of_lookup, lookup_of_mem hd⟩

end

/-- Pairs without keys that occur twice differ from each other. -/
theorem nodup_of_keys {κ α : Type} {pairs : List (κ × α)} (hd : (pairs.map Prod.fst).Nodup) : pairs.Nodup :=
  (List.pairwise_map.mp hd).imp fun hne h => hne (congrArg Prod.fst h)

/-! ## Texts at paths -/

theorem membersWithTexts_eq_map (members : List (String × Json)) (texts : KeyPath → Option String) :
    membersWithTexts members texts =
      members.map fun member => (member.1, member.2.withTexts fun path => texts (member.1 :: path)) := by
  induction members with
  | nil => rfl
  | cons member members ih => rw [membersWithTexts, ih]; rfl

theorem membersHaveDistinctKeys_iff (members : List (String × Json)) :
    MembersHaveDistinctKeys members ↔ ∀ member ∈ members, member.2.HasDistinctKeys := by
  induction members with
  | nil => simp [MembersHaveDistinctKeys]
  | cons member members ih => simp [MembersHaveDistinctKeys, ih]

/-- Replacing texts keeps the keys of an object in their order. -/
@[simp] theorem keys_membersWithTexts (members : List (String × Json)) (texts : KeyPath → Option String) :
    (membersWithTexts members texts).map Prod.fst = members.map Prod.fst := by
  simp [membersWithTexts_eq_map]

theorem lookup_membersWithTexts (members : List (String × Json)) (texts : KeyPath → Option String) (key : String) :
    (membersWithTexts members texts).lookup key =
      (members.lookup key).map fun value => value.withTexts fun path => texts (key :: path) := by
  induction members with
  | nil => rfl
  | cons member members ih =>
    obtain ⟨k, value⟩ := member
    rw [membersWithTexts, List.lookup_cons, List.lookup_cons]
    by_cases hk : key = k
    · subst hk; simp
    · have hk' : (key == k) = false := by simpa using hk
      simp [hk', ih]

/-- After texts are replaced, a path leads to the new text where there is one, and else to the text before. -/
theorem textAt?_withTexts (tree : Json) (texts : KeyPath → Option String) (path : KeyPath) :
    (tree.withTexts texts).textAt? path = (tree.textAt? path).map fun old => (texts path).getD old := by
  induction path generalizing tree texts with
  | nil => cases tree <;> rfl
  | cons key path ih =>
    cases tree with
    | object members =>
      simp only [withTexts, textAt?, lookup_membersWithTexts]
      cases members.lookup key with
      | none => rfl
      | some value => exact ih value _
    | _ => rfl

mutual

/-- Replacing texts twice is replacing them once, the later ones first. -/
theorem withTexts_withTexts (tree : Json) (texts others : KeyPath → Option String) :
    (tree.withTexts texts).withTexts others = tree.withTexts fun path => (others path).or (texts path) := by
  cases tree with
  | string text =>
    simp only [withTexts]
    cases others [] <;> rfl
  | object members => rw [withTexts, withTexts, withTexts, membersWithTexts_membersWithTexts members]
  | _ => rfl

theorem membersWithTexts_membersWithTexts (members : List (String × Json)) (texts others : KeyPath → Option String) :
    membersWithTexts (membersWithTexts members texts) others =
      membersWithTexts members fun path => (others path).or (texts path) := by
  match members with
  | [] => rfl
  | (key, value) :: members =>
    rw [membersWithTexts, membersWithTexts, membersWithTexts, withTexts_withTexts value,
      membersWithTexts_membersWithTexts members]

end

mutual

/-- Replacing texts by themselves changes nothing. -/
theorem withTexts_eq_self (tree : Json) (hd : tree.HasDistinctKeys) (texts : KeyPath → Option String)
    (h : ∀ path text, tree.textAt? path = some text → (texts path).getD text = text) :
    tree.withTexts texts = tree := by
  cases tree with
  | string text => rw [withTexts, h [] text rfl]
  | object members =>
    rw [HasDistinctKeys] at hd
    rw [withTexts, membersWithTexts_eq_self members hd.2 texts]
    intro key value hm path text ht
    refine h (key :: path) text ?_
    rw [textAt?, lookup_of_mem hd.1 hm]
    exact ht
  | _ => rfl

theorem membersWithTexts_eq_self (members : List (String × Json)) (hd : MembersHaveDistinctKeys members)
    (texts : KeyPath → Option String)
    (h : ∀ key value, (key, value) ∈ members → ∀ path text, value.textAt? path = some text →
      (texts (key :: path)).getD text = text) :
    membersWithTexts members texts = members := by
  match members with
  | [] => rfl
  | (key, value) :: members =>
    rw [MembersHaveDistinctKeys] at hd
    rw [membersWithTexts, withTexts_eq_self value hd.1 _ (h key value List.mem_cons_self),
      membersWithTexts_eq_self members hd.2 texts fun k v hm => h k v (List.mem_cons_of_mem _ hm)]

end

mutual

theorem HasDistinctKeys.withTexts (tree : Json) (hd : tree.HasDistinctKeys) (texts : KeyPath → Option String) :
    (tree.withTexts texts).HasDistinctKeys := by
  cases tree with
  | object members =>
    rw [HasDistinctKeys] at hd
    rw [Json.withTexts, HasDistinctKeys, keys_membersWithTexts]
    exact ⟨hd.1, membersHaveDistinctKeys_withTexts members hd.2 texts⟩
  | _ => trivial

theorem membersHaveDistinctKeys_withTexts (members : List (String × Json)) (hd : MembersHaveDistinctKeys members)
    (texts : KeyPath → Option String) : MembersHaveDistinctKeys (membersWithTexts members texts) := by
  match members with
  | [] => trivial
  | (key, value) :: members =>
    rw [MembersHaveDistinctKeys] at hd
    rw [membersWithTexts, MembersHaveDistinctKeys]
    exact ⟨HasDistinctKeys.withTexts value hd.1 _, membersHaveDistinctKeys_withTexts members hd.2 texts⟩

end

/-! ## Members from pairs -/

namespace Members

theorem keys_set (members : Members) (key : String) (value : Json) :
    (members.set key value).map Prod.fst =
      if key ∈ members.map Prod.fst then members.map Prod.fst else members.map Prod.fst ++ [key] := by
  induction members with
  | nil => simp [Members.set]
  | cons member members ih =>
    obtain ⟨k, v⟩ := member
    by_cases hk : k = key
    · subst hk; simp [Members.set]
    · have hk' : ¬key = k := fun h => hk h.symm
      simp only [Members.set, if_neg hk, List.map_cons, ih, List.mem_cons, hk', false_or]
      split <;> simp

theorem lookup_set (members : Members) (key : String) (value : Json) (k : String) :
    (members.set key value).lookup k = if k = key then some value else members.lookup k := by
  induction members with
  | nil =>
    by_cases hk : k = key <;> simp [Members.set, hk]
  | cons member members ih =>
    obtain ⟨k', v⟩ := member
    by_cases hk' : k' = key
    · subst hk'
      by_cases hk : k = k'
      · subst hk; simp [Members.set]
      · simp [Members.set, List.lookup_cons, show (k == k') = false from beq_eq_false_iff_ne.mpr hk, hk]
    · simp only [Members.set, if_neg hk', List.lookup_cons, ih]
      by_cases hk : k = key
      · subst hk
        simp [show (k == k') = false from beq_eq_false_iff_ne.mpr fun h => hk' h.symm]
      · simp [hk]

theorem mem_set {members : Members} {key : String} {value : Json} {member : String × Json}
    (h : member ∈ members.set key value) : member ∈ members ∨ member = (key, value) := by
  induction members with
  | nil => exact Or.inr (List.mem_singleton.mp h)
  | cons m members ih =>
    obtain ⟨k, v⟩ := m
    by_cases hk : k = key
    · subst hk
      rw [Members.set, if_pos rfl] at h
      rcases List.mem_cons.mp h with h | h
      · exact Or.inr h
      · exact Or.inl (List.mem_cons_of_mem _ h)
    · rw [Members.set, if_neg hk] at h
      rcases List.mem_cons.mp h with h | h
      · exact Or.inl (h ▸ List.mem_cons_self)
      · exact (ih h).imp_left (List.mem_cons_of_mem _)

/-- Members of which each key occurs once are settled by their keys in order and what each key holds. -/
theorem ext_of_lookup {as bs : Members} (hd : (as.map Prod.fst).Nodup) (hk : as.map Prod.fst = bs.map Prod.fst)
    (hl : ∀ key, as.lookup key = bs.lookup key) : as = bs := by
  induction as generalizing bs with
  | nil => simpa using hk
  | cons a as ih =>
    rcases bs with _ | ⟨b, bs⟩
    · cases hk
    obtain ⟨k, v⟩ := a
    obtain ⟨k', v'⟩ := b
    simp only [List.map_cons, List.cons.injEq] at hk
    obtain ⟨rfl, hk⟩ := hk
    obtain ⟨hnew, hd⟩ := List.nodup_cons.mp hd
    have hv : v = v' := by simpa using hl k
    subst hv
    refine congrArg _ (ih hd hk fun key => ?_)
    by_cases hkey : key = k
    · subst hkey
      rw [lookup_eq_none hnew, lookup_eq_none (hk ▸ hnew)]
    · have := hl key
      simpa [List.lookup_cons, show (key == k) = false from beq_eq_false_iff_ne.mpr hkey] using this

end Members

/-- The last value that pairs give a key. -/
def lastValue? (pairs : List (String × Json)) (key : String) : Option Json :=
  match pairs with
  | [] => none
  | (k, value) :: pairs => (lastValue? pairs key).or (if key = k then some value else none)

/-- The pairs with other texts in the last value of each key. -/
def pairsWithTexts : List (String × Json) → (KeyPath → Option String) → List (String × Json)
  | [], _ => []
  | (key, value) :: pairs, texts =>
    (key, if key ∈ pairs.map Prod.fst then value else value.withTexts fun path => texts (key :: path)) ::
      pairsWithTexts pairs texts

namespace PairsAux

theorem nodup_keys_foldl (pairs : List (String × Json)) (members : Members) (h : (members.map Prod.fst).Nodup) :
    ((pairs.foldl (fun members pair => Members.set members pair.1 pair.2) members).map Prod.fst).Nodup := by
  induction pairs generalizing members with
  | nil => exact h
  | cons pair pairs ih =>
    refine ih _ ?_
    rw [Members.keys_set]
    split
    · exact h
    · rename_i hnew
      exact List.nodup_append.mpr ⟨h, by simp, by rintro k hk _ hs rfl; simp at hs; exact hnew (hs ▸ hk)⟩

theorem keys_foldl_congr {pairs pairs' : List (String × Json)} (hp : pairs.map Prod.fst = pairs'.map Prod.fst)
    {members members' : Members} (hm : members.map Prod.fst = members'.map Prod.fst) :
    (pairs.foldl (fun members pair => Members.set members pair.1 pair.2) members).map Prod.fst =
      (pairs'.foldl (fun members pair => Members.set members pair.1 pair.2) members').map Prod.fst := by
  induction pairs generalizing pairs' members members' with
  | nil =>
    rcases pairs' with _ | ⟨pair', pairs'⟩
    · exact hm
    · cases hp
  | cons pair pairs ih =>
    rcases pairs' with _ | ⟨pair', pairs'⟩
    · cases hp
    simp only [List.map_cons, List.cons.injEq] at hp
    refine ih hp.2 ?_
    rw [Members.keys_set, Members.keys_set, hm, hp.1]

theorem lookup_foldl (pairs : List (String × Json)) (members : Members) (key : String) :
    (pairs.foldl (fun members pair => Members.set members pair.1 pair.2) members).lookup key =
      (lastValue? pairs key).or (members.lookup key) := by
  induction pairs generalizing members with
  | nil => rfl
  | cons pair pairs ih =>
    obtain ⟨k, v⟩ := pair
    rw [List.foldl_cons, ih, Members.lookup_set, lastValue?]
    cases lastValue? pairs key <;> by_cases hk : key = k <;> simp [hk]

theorem mem_foldl {pairs : List (String × Json)} {members : Members} {member : String × Json}
    (h : member ∈ pairs.foldl (fun members pair => Members.set members pair.1 pair.2) members) :
    member ∈ pairs ∨ member ∈ members := by
  induction pairs generalizing members with
  | nil => exact Or.inr h
  | cons pair pairs ih =>
    rcases ih h with h | h
    · exact Or.inl (List.mem_cons_of_mem _ h)
    · rcases Members.mem_set h with h | h
      · exact Or.inr h
      · exact Or.inl (h ▸ List.mem_cons_self)

end PairsAux

open PairsAux

/-- The members that pairs make have each key once. -/
theorem nodup_keys_ofPairs (pairs : List (String × Json)) : ((Members.ofPairs pairs).map Prod.fst).Nodup :=
  nodup_keys_foldl pairs [] List.nodup_nil

/-- The members that pairs make hold the last value of each key. -/
theorem lookup_ofPairs (pairs : List (String × Json)) (key : String) :
    (Members.ofPairs pairs).lookup key = lastValue? pairs key := by
  rw [Members.ofPairs, lookup_foldl]
  cases lastValue? pairs key <;> rfl

theorem mem_of_mem_ofPairs {pairs : List (String × Json)} {member : String × Json}
    (h : member ∈ Members.ofPairs pairs) : member ∈ pairs := by
  rcases mem_foldl h with h | h
  · exact h
  · cases h

@[simp] theorem keys_pairsWithTexts (pairs : List (String × Json)) (texts : KeyPath → Option String) :
    (pairsWithTexts pairs texts).map Prod.fst = pairs.map Prod.fst := by
  induction pairs with
  | nil => rfl
  | cons pair pairs ih => rw [pairsWithTexts, List.map_cons, ih]; rfl

theorem lastValue?_eq_none_iff {pairs : List (String × Json)} {key : String} :
    lastValue? pairs key = none ↔ key ∉ pairs.map Prod.fst := by
  induction pairs with
  | nil => simp [lastValue?]
  | cons pair pairs ih =>
    by_cases hk : key = pair.1 <;> simp [lastValue?, ih, hk]

theorem lastValue?_pairsWithTexts (pairs : List (String × Json)) (texts : KeyPath → Option String) (key : String) :
    lastValue? (pairsWithTexts pairs texts) key =
      (lastValue? pairs key).map fun value => value.withTexts fun path => texts (key :: path) := by
  induction pairs with
  | nil => rfl
  | cons pair pairs ih =>
    obtain ⟨k, v⟩ := pair
    rw [pairsWithTexts, lastValue?, ih, lastValue?]
    by_cases hk : key = k
    · subst hk
      by_cases hm : key ∈ pairs.map Prod.fst
      · obtain ⟨value, hv⟩ := Option.ne_none_iff_exists'.mp (mt lastValue?_eq_none_iff.mp (not_not_intro hm))
        simp [hv]
      · simp [lastValue?_eq_none_iff.mpr hm, hm]
    · cases lastValue? pairs key <;> simp [hk]

/-- Replacing texts in the last value of each key replaces them in the members that the pairs make. -/
theorem ofPairs_pairsWithTexts (pairs : List (String × Json)) (texts : KeyPath → Option String) :
    Members.ofPairs (pairsWithTexts pairs texts) = membersWithTexts (Members.ofPairs pairs) texts := by
  refine Members.ext_of_lookup (nodup_keys_ofPairs _) ?_ fun key => ?_
  · rw [keys_membersWithTexts]
    exact keys_foldl_congr (keys_pairsWithTexts pairs texts) rfl
  · rw [lookup_ofPairs, lookup_membersWithTexts, lookup_ofPairs, lastValue?_pairsWithTexts]

end SealedConfig.Json
