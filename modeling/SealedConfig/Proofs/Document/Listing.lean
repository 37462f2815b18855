import Mathlib
import SealedConfig.Proofs.Document.Scan
import SealedConfig.Proofs.Json.Node

/-!
# A scan is what it is to list

The secrets of a tree and the order of the document leave no choice: there is one list that has just the secrets of the tree, each once
and in that order, and it is the scan. Lists in the tree have no part in it.
-/

namespace SealedConfig

open Json

/-! ## Lists left out -/

namespace Json

mutual

/-- The tree with the lists emptied that are reached through objects. -/
def withoutItems : Json → Json
  | .array _ => .array []
  | .object members => .object (membersWithoutItems members)
  | node => node

/-- The members of an object with the lists emptied. -/
def membersWithoutItems : List (String × Json) → List (String × Json)
  | [] => []
  | (key, value) :: members => (key, value.withoutItems) :: membersWithoutItems members

end

end Json

namespace Scan

namespace ScanAux

mutual

theorem below_withoutItems (tree : Json) (path : KeyPath) : below path tree.withoutItems = below path tree := by
  cases tree with
  | object members => exact ofMembers_withoutItems members path
  | _ => rfl

theorem ofMembers_withoutItems (members : List (String × Json)) (path : KeyPath) :
    ofMembers path (membersWithoutItems members) = ofMembers path members := by
  match members with
  | [] => rfl
  | (key, value) :: members =>
    have hvalue : ofMember path key value.withoutItems = ofMember path key value := by
      cases value with
      | object inner => exact below_withoutItems (.object inner) (path.child key)
      | _ => rfl
    rw [membersWithoutItems, ofMembers_cons, ofMembers_cons, hvalue, ofMembers_withoutItems members path]

end

/-! ## The order of a scan -/

/-- Two secrets below a node at a path are in the order of the document. -/
def InOrder (path : KeyPath) (tree : Json) (field other : SecretField) : Prop :=
  ∃ first second, field.path = path ++ first ∧ other.path = path ++ second ∧ tree.Precedes first second

/-- At most one secret stands at a text. -/
theorem pairwise_leaf (path : KeyPath) (key text : String) (before : SecretField → SecretField → Prop) :
    (leaf path key text).Pairwise before := by
  rw [leaf]
  split
  · exact .nil
  · split
    · exact List.pairwise_singleton _ _
    · exact .nil

/-- Secrets below a value are in the order of the object that has the value. -/
theorem InOrder.of_child {path : KeyPath} {members : List (String × Json)} {key : String} {value : Json}
    (hvalue : members.lookup key = some value) {field other : SecretField} (h : InOrder (path.child key) value field other) :
    InOrder path (.object members) field other := by
  obtain ⟨first, second, hfirst, hsecond, horder⟩ := h
  rw [KeyPath.child, List.append_assoc] at hfirst hsecond
  exact ⟨key :: first, key :: second, hfirst, hsecond, precedes_cons_iff.mpr (Or.inr ⟨rfl, value, hvalue, horder⟩)⟩

mutual

/-- The secrets below a node are in the order of the document. -/
theorem pairwise_below (tree : Json) (hd : tree.HasDistinctKeys) (path : KeyPath) : (below path tree).Pairwise (InOrder path tree) := by
  cases tree with
  | object members => exact pairwise_ofMembers [] members hd path
  | _ => exact .nil

/-- The secrets of the last members of an object are in the order of the document. -/
theorem pairwise_ofMembers (before members : List (String × Json)) (hd : (Json.object (before ++ members)).HasDistinctKeys)
    (path : KeyPath) : (ofMembers path members).Pairwise (InOrder path (.object (before ++ members))) := by
  match members with
  | [] => exact .nil
  | (key, value) :: members =>
    have hvalues := (membersHaveDistinctKeys_iff _).mp hd.2
    have hvalue : value.HasDistinctKeys := hvalues (key, value) (by simp)
    have hlookup : (before ++ (key, value) :: members).lookup key = some value := lookup_of_mem hd.1 (by simp)
    rw [ofMembers_cons, List.pairwise_append]
    refine ⟨?_, ?_, ?_⟩
    · cases value with
      | string text => exact pairwise_leaf _ _ _ _
      | object inner => exact (pairwise_below (.object inner) hvalue (path.child key)).imp (InOrder.of_child hlookup)
      | _ => exact .nil
    · rw [List.append_cons] at hd ⊢
      exact pairwise_ofMembers (before ++ [(key, value)]) members hd path
    · -- what stands behind one key comes before what stands behind a later one
      intro field hfield other hother
      obtain ⟨rest, text, -, hfield⟩ := (mem_ofMember key value (mem_below value hvalue)).mp hfield
      have hmembers : MembersHaveDistinctKeys members :=
        (membersHaveDistinctKeys_iff _).mpr fun member hmember => hvalues member (by simp [hmember])
      obtain ⟨k, rest', hk, hother⟩ := exists_key_of_mem_ofMembers hmembers hother
      refine ⟨key :: rest, k :: rest', by rw [hfield.1], hother, precedes_cons_iff.mpr (Or.inl ?_)⟩
      rw [List.map_append, List.map_cons]
      exact ((List.singleton_sublist.mpr hk).cons_cons key).trans (List.sublist_append_right _ _)

end

end ScanAux

open ScanAux

/-- What is to be listed of a tree: the texts behind keys that are secrets, each at its path and marked ones as such, in the order of
the document. -/
structure IsListing (tree : Json) (fields : List SecretField) : Prop where
  mem_iff : ∀ field, field ∈ fields ↔ field.path ≠ [] ∧ tree.nodeAt? field.path = some (.string field.value) ∧
    IsSecret field.path field.value ∧ field.isEncrypted = Envelope.isMarked field.value
  inOrder : fields.Pairwise fun field other => tree.Precedes field.path other.path

/-- A scan falls into the secrets that are not marked and those that are, each in the order of the scan. -/
structure SplitsByMark (scan : Scan) : Prop where
  plain_sublist : scan.plain.Sublist scan
  encrypted_sublist : scan.encrypted.Sublist scan
  perm : (scan.plain ++ scan.encrypted).Perm scan
  of_mem_plain : ∀ field ∈ scan.plain, Envelope.isMarked field.value = false
  of_mem_encrypted : ∀ field ∈ scan.encrypted, Envelope.isMarked field.value = true

variable {tree : Json} {fields : List SecretField}

/-- The scan of a tree lists what is to be listed. -/
theorem isListing_ofTree (hd : tree.HasDistinctKeys) : IsListing tree (ofTree tree) where
  mem_iff field := by
    rw [mem_ofTree_iff hd, textAt?_eq_some_iff]
  inOrder := by
    refine (pairwise_below tree hd []).imp ?_
    rintro field other ⟨first, second, hfirst, hsecond, horder⟩
    rw [hfirst, hsecond]
    exact horder

/-- No path is to be listed twice. -/
theorem IsListing.nodup_paths (hd : tree.HasDistinctKeys) (h : IsListing tree fields) : (fields.map SecretField.path).Nodup := by
  refine List.pairwise_map.mpr (h.inOrder.imp fun {field other} horder heq => ?_)
  rw [heq] at horder
  exact horder.irrefl hd _

/-- There is one list only of what is to be listed. -/
theorem IsListing.eq (hd : tree.HasDistinctKeys) (h : IsListing tree fields) {others : List SecretField} (h' : IsListing tree others) :
    fields = others := by
  have hperm : fields.Perm others :=
    (List.perm_ext_iff_of_nodup (h.nodup_paths hd).of_map (h'.nodup_paths hd).of_map).mpr fun field =>
      (h.mem_iff field).trans (h'.mem_iff field).symm
  exact hperm.eq_of_pairwise (fun _ _ _ _ horder hback => absurd hback (horder.asymm hd)) h.inOrder h'.inOrder

/-- The scan of a tree splits by the marks of its texts. -/
theorem splitsByMark_ofTree (hd : tree.HasDistinctKeys) : SplitsByMark (ofTree tree) where
  plain_sublist := List.filter_sublist
  encrypted_sublist := List.filter_sublist
  perm := List.perm_append_comm.trans (List.filter_append_perm _ _)
  of_mem_plain _ h := ((mem_plain_iff hd).mp h).2.2.2.1
  of_mem_encrypted _ h := ((mem_encrypted_iff hd).mp h).2.2.1

/-- A scan is the list of what is to be listed of the tree: of its texts behind keys those that are not empty and are marked or have a
last key that is the name of a secret, with their marks, in the order of the document and no path twice. It splits by the marks, keeping
its order. All the way to a listed text there are only objects, what is in lists makes no difference, and a tree that is no object has
no secrets. -/
theorem ofTree_isListing (hd : tree.HasDistinctKeys) :
    (∀ fields, IsListing tree fields ↔ fields = ofTree tree) ∧ ((ofTree tree).map SecretField.path).Nodup ∧
      SplitsByMark (ofTree tree) ∧
      (∀ field ∈ ofTree tree, ∀ base rest, field.path = base ++ rest → rest ≠ [] →
        ∃ members, tree.nodeAt? base = some (.object members)) ∧
      ofTree tree.withoutItems = ofTree tree ∧ ((∀ members, tree ≠ .object members) → ofTree tree = []) := by
  have hlisting := isListing_ofTree hd
  refine ⟨fun fields => ⟨fun h => h.eq hd hlisting, fun h => h ▸ hlisting⟩, hlisting.nodup_paths hd, splitsByMark_ofTree hd, ?_,
    below_withoutItems tree [], ?_⟩
  · intro field hfield base rest hpath hne
    have hnode := ((hlisting.mem_iff field).mp hfield).2.1
    rw [hpath] at hnode
    exact exists_object_of_nodeAt? hnode hne
  · intro hnone
    cases tree with
    | object members => exact absurd rfl (hnone members)
    | _ => rfl

/-- A tree with secrets at two depths, one of them marked under a name that is none of a secret, and with texts that are no secrets. -/
def layered : Json :=
  .object [("Core", .object [("Key", .string "x"), ("Url", .string "ENCRYPTED:")]), ("Tags", .array [.object [("Key", .string "y")]]),
    ("Empty", .object [("Key", .string "")]), ("Token", .string "z")]

/-- Its secrets in order. -/
theorem ofTree_isListing_layered :
    layered.HasDistinctKeys ∧
      IsListing layered [⟨["Core", "Key"], "x", false⟩, ⟨["Core", "Url"], "ENCRYPTED:", true⟩, ⟨["Token"], "z", false⟩] := by
  have hd : layered.HasDistinctKeys := by simp [layered, HasDistinctKeys, MembersHaveDistinctKeys]
  have hlisted : ofTree layered = [⟨["Core", "Key"], "x", false⟩, ⟨["Core", "Url"], "ENCRYPTED:", true⟩, ⟨["Token"], "z", false⟩] := by
    cbv
  exact ⟨hd, ((ofTree_isListing hd).1 _).mpr hlisted.symm⟩

end Scan

end SealedConfig
