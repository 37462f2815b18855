import Mathlib.Data.List.Forall2
import SealedConfig.Proofs.Json.Node

/-!
# Looking up nodes

A look-up by keys takes them exactly or else ignoring the case of ASCII letters. It follows a path of keys as they are spelled in the
tree, and it follows the same path when texts of the tree are replaced.
-/

namespace SealedConfig.Json

/-- The member that a look-up finds for a key: the one so spelled, else the first one that differs only in the case of ASCII
letters. -/
def Members.entry? (members : Members) (key : String) : Option (String × Json) :=
  match members.lookup key with
  | some value => some (key, value)
  | none => List.find? (fun member => sameIgnoringCase member.1 key) members

/-- The path of keys, as they are spelled, that a look-up follows, and the node that it finds there. -/
def trace? : Json → List String → Option (KeyPath × Json)
  | node, [] => some ([], node)
  | .object members, key :: keys =>
    (Members.entry? members key).bind fun (spelled, child) =>
      (child.trace? keys).map fun (path, node) => (spelled :: path, node)
  | _, _ :: _ => none

@[simp] theorem trace?_nil (tree : Json) : tree.trace? [] = some ([], tree) := by cases tree <;> rfl

/-- A look-up that finds a node by keys has found a member for the first of them, and goes on from its value. -/
theorem exists_of_trace?_cons {tree node : Json} {key : String} {keys : List String} {path : KeyPath}
    (h : tree.trace? (key :: keys) = some (path, node)) :
    ∃ members spelled child rest, tree = .object members ∧ path = spelled :: rest ∧
      Members.entry? members key = some (spelled, child) ∧ child.trace? keys = some (rest, node) := by
  cases tree with
  | object members =>
    obtain ⟨⟨spelled, child⟩, hentry, h⟩ := Option.bind_eq_some_iff.mp h
    obtain ⟨⟨rest, found⟩, htrace, heq⟩ := Option.map_eq_some_iff.mp h
    obtain ⟨rfl, rfl⟩ := Prod.mk.inj heq
    exact ⟨members, spelled, child, rest, rfl, rfl, hentry, htrace⟩
  | _ => cases h

/-! ## What is found -/

theorem Members.find?_eq_map_entry? (members : Members) (key : String) :
    Members.find? members key = (Members.entry? members key).map Prod.snd := by
  unfold Members.find? Members.entry?
  cases members.lookup key with
  | some value => rfl
  | none => rfl

/-- A look-up finds the node at the end of its path. -/
theorem get?_eq_map_trace? (tree : Json) (keys : List String) : tree.get? keys = (tree.trace? keys).map Prod.snd := by
  induction keys generalizing tree with
  | nil => cases tree <;> rfl
  | cons key keys ih =>
    cases tree with
    | object members =>
      simp only [get?, member?, trace?, Members.find?_eq_map_entry?]
      cases Members.entry? members key with
      | none => rfl
      | some entry =>
        simp only [Option.map_some, Option.bind_some, ih entry.2, Option.map_map]
        rfl
    | _ => rfl

/-- The member that a look-up finds has its value under its key. -/
theorem Members.lookup_of_entry? {members : Members} (hd : (members.map Prod.fst).Nodup) {key spelled : String} {child : Json}
    (h : Members.entry? members key = some (spelled, child)) : members.lookup spelled = some child := by
  unfold Members.entry? at h
  split at h
  · rename_i value hvalue
    obtain ⟨rfl, rfl⟩ := Prod.mk.inj (Option.some.inj h)
    exact hvalue
  · exact lookup_of_mem hd (List.mem_of_find?_eq_some h)

/-- The path that a look-up follows leads to the node that it finds. -/
theorem nodeAt?_of_trace? {tree : Json} (hd : tree.HasDistinctKeys) {keys : List String} {path : KeyPath} {node : Json}
    (h : tree.trace? keys = some (path, node)) : tree.nodeAt? path = some node := by
  induction keys generalizing tree path with
  | nil =>
    obtain ⟨rfl, rfl⟩ := Prod.mk.inj (Option.some.inj ((trace?_nil tree).symm.trans h))
    exact nodeAt?_nil tree
  | cons key keys ih =>
    obtain ⟨members, spelled, child, rest, rfl, rfl, hentry, htrace⟩ := exists_of_trace?_cons h
    have hchild : members.lookup spelled = some child := Members.lookup_of_entry? hd.1 hentry
    rw [nodeAt?_object, hchild]
    exact ih (hd.of_lookup hchild) htrace

/-- A key that is there is found as it is spelled. -/
theorem Members.entry?_of_lookup {members : Members} {key : String} {child : Json} (h : members.lookup key = some child) :
    Members.entry? members key = some (key, child) := by
  unfold Members.entry?
  rw [h]

/-- A path that leads to a node is followed to it, even past keys that differ from its own in case only. -/
theorem trace?_of_nodeAt? {tree : Json} {path : KeyPath} {node : Json} (h : tree.nodeAt? path = some node) :
    tree.trace? path = some (path, node) := by
  induction path generalizing tree with
  | nil =>
    obtain rfl : tree = node := Option.some.inj ((nodeAt?_nil tree).symm.trans h)
    exact trace?_nil tree
  | cons key rest ih =>
    obtain ⟨members, child, rfl, hchild, h⟩ := nodeAt?_cons_eq_some_iff.mp h
    rw [trace?, Members.entry?_of_lookup hchild, Option.bind_some]
    dsimp only
    rw [ih h]
    rfl

/-- The member that a look-up finds is spelled as the key, the case of ASCII letters aside. -/
theorem Members.sameIgnoringCase_of_entry? {members : Members} {key spelled : String} {child : Json}
    (h : Members.entry? members key = some (spelled, child)) : sameIgnoringCase spelled key = true := by
  unfold Members.entry? at h
  split at h
  · obtain ⟨rfl, rfl⟩ := Prod.mk.inj (Option.some.inj h)
    exact beq_self_eq_true _
  · simpa using List.find?_some h

/-- The path that a look-up follows is spelled as its keys, the case of ASCII letters aside. -/
theorem forall₂_of_trace? {tree : Json} {keys : List String} {path : KeyPath} {node : Json}
    (h : tree.trace? keys = some (path, node)) :
    List.Forall₂ (fun spelled key => sameIgnoringCase spelled key = true) path keys := by
  induction keys generalizing tree path with
  | nil =>
    obtain ⟨rfl, -⟩ := Prod.mk.inj (Option.some.inj ((trace?_nil tree).symm.trans h))
    exact .nil
  | cons key keys ih =>
    obtain ⟨members, spelled, child, rest, rfl, rfl, hentry, htrace⟩ := exists_of_trace?_cons h
    exact .cons (Members.sameIgnoringCase_of_entry? hentry) (ih htrace)

/-! ## Other texts -/

/-- With other texts the same member is found for a key. -/
theorem Members.entry?_membersWithTexts (members : Members) (texts : KeyPath → Option String) (key : String) :
    Members.entry? (membersWithTexts members texts) key =
      (Members.entry? members key).map fun (spelled, child) =>
        (spelled, child.withTexts fun path => texts (spelled :: path)) := by
  unfold Members.entry?
  rw [lookup_membersWithTexts]
  cases members.lookup key with
  | some value => rfl
  | none =>
    dsimp only [Option.map_none]
    rw [membersWithTexts_eq_map, List.find?_map]
    rfl

/-- With other texts a look-up follows the same path, and what it finds has the other texts behind that path. -/
theorem trace?_withTexts (tree : Json) (texts : KeyPath → Option String) (keys : List String) :
    (tree.withTexts texts).trace? keys =
      (tree.trace? keys).map fun (base, node) => (base, node.withTexts fun path => texts (base ++ path)) := by
  induction keys generalizing tree texts with
  | nil => cases tree <;> rfl
  | cons key keys ih =>
    cases tree with
    | object members =>
      rw [withTexts, trace?, trace?, Members.entry?_membersWithTexts]
      cases Members.entry? members key with
      | none => rfl
      | some entry =>
        simp only [Option.map_some, Option.bind_some, ih, Option.map_map]
        rfl
    | _ => rfl

end SealedConfig.Json
