import SealedConfig.Document.Scan
import SealedConfig.Proofs.Json.Leaf

/-!
# What a scan lists

A scan lists exactly the texts of the tree that are not empty and are marked or named like secrets, each at its path and once.
-/

namespace SealedConfig.Scan

open Json

/-- A text of a tree is a secret when it is not empty and is marked or the last key of its path is the name of a secret. -/
def IsSecret (path : KeyPath) (text : String) : Prop :=
  text ≠ "" ∧ (Envelope.isMarked text = true ∨ ∃ key, path.getLast? = some key ∧ isSecretName key = true)

namespace ScanAux

theorem mem_leaf {path : KeyPath} {key text : String} {field : SecretField} (hkey : path.getLast? = some key) :
    field ∈ leaf path key text ↔ field = ⟨path, text, Envelope.isMarked text⟩ ∧ IsSecret path text := by
  rw [leaf, IsSecret]
  by_cases hempty : text = ""
  · simp [hempty]
  · by_cases hsecret : (Envelope.isMarked text || isSecretName key) = true
    · rw [if_neg hempty, if_pos hsecret]
      simp only [List.mem_singleton, hkey, Option.some.injEq, exists_eq_left']
      rw [Bool.or_eq_true] at hsecret
      exact ⟨fun h => ⟨h, hempty, hsecret⟩, fun h => h.1⟩
    · rw [if_neg hempty, if_neg hsecret]
      simp only [List.not_mem_nil, hkey, Option.some.injEq, exists_eq_left', false_iff, not_and]
      rw [Bool.or_eq_true] at hsecret
      exact fun _ _ => hsecret

/-- The secrets of one member. -/
def ofMember (path : KeyPath) (key : String) : Json → List SecretField
  | .string text => leaf (path.child key) key text
  | node => below (path.child key) node

theorem ofMembers_cons (path : KeyPath) (key : String) (value : Json) (members : List (String × Json)) :
    ofMembers path ((key, value) :: members) = ofMember path key value ++ ofMembers path members := by
  cases value <;> rfl

/-- What is listed of a text, and how. -/
def Lists (path : KeyPath) (text : String) (field : SecretField) : Prop :=
  field = ⟨path, text, Envelope.isMarked text⟩ ∧ IsSecret path text

/-- Of one member the texts from its value on are listed, if they are secrets. -/
theorem mem_ofMember (key : String) (value : Json) {path : KeyPath} {field : SecretField}
    (hbelow : field ∈ below (path.child key) value ↔
      ∃ k rest text, value.textAt? (k :: rest) = some text ∧ Lists (path.child key ++ k :: rest) text field) :
    field ∈ ofMember path key value ↔
      ∃ rest text, value.textAt? rest = some text ∧ Lists (path ++ key :: rest) text field := by
  cases value with
  | string text =>
    rw [ofMember, KeyPath.child, mem_leaf List.getLast?_concat]
    constructor
    · intro h
      exact ⟨[], text, rfl, h⟩
    · rintro ⟨rest, t, ht, h⟩
      cases rest with
      | nil => cases ht; exact h
      | cons _ _ => cases ht
  | object members =>
    rw [ofMember, hbelow, KeyPath.child]
    · constructor
      · rintro ⟨k, rest, text, ht, h⟩
        exact ⟨k :: rest, text, ht, by rwa [List.append_cons]⟩
      · rintro ⟨rest, text, ht, h⟩
        cases rest with
        | nil => cases ht
        | cons k rest => exact ⟨k, rest, text, ht, by rwa [List.append_cons] at h⟩
    · exact nofun
  | _ =>
    simp only [ofMember, below, List.not_mem_nil, false_iff]
    rintro ⟨rest, text, ht, -⟩
    cases rest <;> cases ht

mutual

/-- Below a node its texts at longer paths are listed, if they are secrets. -/
theorem mem_below (tree : Json) (hd : tree.HasDistinctKeys) {path : KeyPath} {field : SecretField} :
    field ∈ below path tree ↔ ∃ key rest text, tree.textAt? (key :: rest) = some text ∧ Lists (path ++ key :: rest) text field := by
  cases tree with
  | object members =>
    rw [HasDistinctKeys] at hd
    rw [below, mem_ofMembers members hd.2]
    constructor
    · rintro ⟨key, value, hm, rest, text, ht, hl⟩
      exact ⟨key, rest, text, by rw [textAt?, lookup_of_mem hd.1 hm]; exact ht, hl⟩
    · rintro ⟨key, rest, text, ht, hl⟩
      rw [textAt?] at ht
      obtain ⟨value, hv, ht⟩ := Option.bind_eq_some_iff.mp ht
      exact ⟨key, value, mem_of_lookup hv, rest, text, ht, hl⟩
  | _ =>
    simp only [below, List.not_mem_nil, false_iff]
    rintro ⟨key, rest, text, ht, -⟩
    cases ht

/-- Of members the texts below each of them are listed, if they are secrets. -/
theorem mem_ofMembers (members : List (String × Json)) (hd : MembersHaveDistinctKeys members) {path : KeyPath}
    {field : SecretField} :
    field ∈ ofMembers path members ↔
      ∃ key value, (key, value) ∈ members ∧
        ∃ rest text, value.textAt? rest = some text ∧ Lists (path ++ key :: rest) text field := by
  match members with
  | [] => simp [ofMembers]
  | (k, v) :: members =>
    rw [MembersHaveDistinctKeys] at hd
    rw [ofMembers_cons, List.mem_append, mem_ofMember k v (mem_below v hd.1), mem_ofMembers members hd.2]
    simp only [List.mem_cons, Prod.mk.injEq]
    constructor
    · rintro (h | ⟨key, value, hm, h⟩)
      · exact ⟨k, v, Or.inl ⟨rfl, rfl⟩, h⟩
      · exact ⟨key, value, Or.inr hm, h⟩
    · rintro ⟨key, value, ⟨rfl, rfl⟩ | hm, h⟩
      · exact Or.inl h
      · exact Or.inr ⟨key, value, hm, h⟩

end

/-! ## Paths are distinct -/

/-- What is listed of members stands behind one of their keys. -/
theorem exists_key_of_mem_ofMembers {members : List (String × Json)} (hd : MembersHaveDistinctKeys members)
    {path : KeyPath} {field : SecretField} (h : field ∈ ofMembers path members) :
    ∃ key rest, key ∈ members.map Prod.fst ∧ field.path = path ++ key :: rest := by
  obtain ⟨key, value, hm, rest, text, -, hl⟩ := (mem_ofMembers members hd).mp h
  exact ⟨key, rest, List.mem_map_of_mem hm, by rw [hl.1]⟩

mutual

/-- No path is listed twice. -/
theorem nodup_below (tree : Json) (hd : tree.HasDistinctKeys) (path : KeyPath) :
    ((below path tree).map SecretField.path).Nodup := by
  cases tree with
  | object members =>
    rw [HasDistinctKeys] at hd
    exact nodup_ofMembers members hd.1 hd.2 path
  | _ => exact List.nodup_nil

theorem nodup_ofMembers (members : List (String × Json)) (hkeys : (members.map Prod.fst).Nodup)
    (hd : MembersHaveDistinctKeys members) (path : KeyPath) :
    ((ofMembers path members).map SecretField.path).Nodup := by
  match members with
  | [] => exact List.nodup_nil
  | (key, value) :: members =>
    rw [MembersHaveDistinctKeys] at hd
    obtain ⟨hnew, hkeys⟩ := List.nodup_cons.mp hkeys
    have hvalue : ((ofMember path key value).map SecretField.path).Nodup := by
      cases value with
      | string text =>
        rw [ofMember, leaf]
        split
        · exact List.nodup_nil
        · split
          · simp
          · exact List.nodup_nil
      | object members => exact nodup_below (.object members) hd.1 (path.child key)
      | _ => exact List.nodup_nil
    rw [ofMembers_cons, List.map_append]
    refine List.nodup_append.mpr ⟨hvalue, nodup_ofMembers members hkeys hd.2 path, ?_⟩
    rintro p hp _ hq rfl
    obtain ⟨field, hfield, rfl⟩ := List.mem_map.mp hp
    obtain ⟨other, hother, heq⟩ := List.mem_map.mp hq
    obtain ⟨rest, text, -, hl⟩ := (mem_ofMember key value (mem_below value hd.1)).mp hfield
    obtain ⟨k, rest', hk, hpath⟩ := exists_key_of_mem_ofMembers hd.2 hother
    rw [heq, hl.1, List.append_cancel_left_eq, List.cons.injEq] at hpath
    exact hnew (hpath.1 ▸ hk)

end

end ScanAux

open ScanAux

variable {tree : Json} {field : SecretField}

/-- A scan lists the texts behind keys that are secrets, each at its path, and marked ones as such. -/
theorem mem_ofTree_iff (hd : tree.HasDistinctKeys) :
    field ∈ ofTree tree ↔ field.path ≠ [] ∧ tree.textAt? field.path = some field.value ∧ IsSecret field.path field.value ∧
      field.isEncrypted = Envelope.isMarked field.value := by
  rw [ofTree, mem_below tree hd]
  constructor
  · rintro ⟨key, rest, text, ht, rfl, hs⟩
    exact ⟨List.cons_ne_nil key rest, ht, hs, rfl⟩
  · rintro ⟨hne, ht, hs, he⟩
    obtain ⟨path, value, isEncrypted⟩ := field
    obtain rfl : isEncrypted = Envelope.isMarked value := he
    cases path with
    | nil => exact absurd rfl hne
    | cons key rest => exact ⟨key, rest, value, ht, rfl, hs⟩

/-- No path is listed twice. -/
theorem nodup_paths_ofTree (hd : tree.HasDistinctKeys) : ((ofTree tree).map SecretField.path).Nodup :=
  nodup_below tree hd []

/-- The secrets that are not marked. -/
theorem mem_plain_iff (hd : tree.HasDistinctKeys) :
    field ∈ (ofTree tree).plain ↔ field.path ≠ [] ∧ tree.textAt? field.path = some field.value ∧
      IsSecret field.path field.value ∧ Envelope.isMarked field.value = false ∧ field.isEncrypted = false := by
  rw [plain, List.mem_filter, mem_ofTree_iff hd, Bool.not_eq_true']
  constructor
  · rintro ⟨⟨hne, ht, hs, he⟩, hf⟩
    exact ⟨hne, ht, hs, he ▸ hf, hf⟩
  · rintro ⟨hne, ht, hs, hm, hf⟩
    exact ⟨⟨hne, ht, hs, hf.trans hm.symm⟩, hf⟩

/-- The secrets that are marked. -/
theorem mem_encrypted_iff (hd : tree.HasDistinctKeys) :
    field ∈ (ofTree tree).encrypted ↔ field.path ≠ [] ∧ tree.textAt? field.path = some field.value ∧
      Envelope.isMarked field.value = true ∧ field.isEncrypted = true := by
  rw [encrypted, List.mem_filter, mem_ofTree_iff hd]
  constructor
  · rintro ⟨⟨hne, ht, -, he⟩, hf⟩
    exact ⟨hne, ht, he ▸ hf, hf⟩
  · rintro ⟨hne, ht, hm, hf⟩
    refine ⟨⟨hne, ht, ⟨?_, Or.inl hm⟩, hf.trans hm.symm⟩, hf⟩
    intro hempty
    rw [hempty] at hm
    exact absurd hm (by decide)

/-- No path occurs twice among the secrets that an operation is for. -/
theorem nodup_paths_filter (hd : tree.HasDistinctKeys) (keep : SecretField → Bool) :
    (((ofTree tree).filter keep).map SecretField.path).Nodup :=
  (nodup_paths_ofTree hd).sublist (List.filter_sublist.map _)

end SealedConfig.Scan
