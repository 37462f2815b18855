import SealedConfig.Proofs.Json.Leaf

/-!
# The nodes of a tree

A node that is reached from the root through objects only stands at the path of the keys on the way, each taken literally. Paths have
the order of the document: where two of them part, the one whose key comes earlier in the object comes first.
-/

namespace SealedConfig.Json

/-- The node at the end of a path of keys, each taken literally. -/
def nodeAt? : Json → KeyPath → Option Json
  | node, [] => some node
  | .object members, key :: path => (members.lookup key).bind fun child => child.nodeAt? path
  | _, _ :: _ => none

variable {tree node : Json} {members : Members} {key other : String} {path first second : KeyPath} {text : String}

/-! ## Paths to nodes -/

@[simp] theorem nodeAt?_nil (tree : Json) : tree.nodeAt? [] = some tree := by cases tree <;> rfl

@[simp] theorem nodeAt?_object (members : Members) (key : String) (path : KeyPath) :
    (Json.object members).nodeAt? (key :: path) = (members.lookup key).bind fun child => child.nodeAt? path := rfl

/-- A path of at least one key leads from an object through the value of its first key. -/
theorem nodeAt?_cons_eq_some_iff :
    tree.nodeAt? (key :: path) = some node ↔
      ∃ members child, tree = .object members ∧ members.lookup key = some child ∧ child.nodeAt? path = some node := by
  cases tree with
  | object members =>
    rw [nodeAt?_object, Option.bind_eq_some_iff]
    constructor
    · rintro ⟨child, hchild, hnode⟩
      exact ⟨members, child, rfl, hchild, hnode⟩
    · rintro ⟨_, child, heq, hchild, hnode⟩
      obtain rfl := Json.object.inj heq
      exact ⟨child, hchild, hnode⟩
  | _ => exact iff_of_false nofun nofun

/-- A path that is followed by another one leads on from its node. -/
theorem nodeAt?_append (tree : Json) (first second : KeyPath) :
    tree.nodeAt? (first ++ second) = (tree.nodeAt? first).bind fun node => node.nodeAt? second := by
  induction first generalizing tree with
  | nil => simp
  | cons key first ih =>
    cases tree with
    | object members =>
      rw [List.cons_append, nodeAt?_object, nodeAt?_object, Option.bind_assoc]
      exact congrArg _ (funext ih)
    | _ => rfl

/-- On the way to a node there are only objects. -/
theorem exists_object_of_nodeAt? (h : tree.nodeAt? (first ++ second) = some node) (hne : second ≠ []) :
    ∃ members, tree.nodeAt? first = some (.object members) := by
  obtain ⟨key, rest, rfl⟩ := List.exists_cons_of_ne_nil hne
  rw [nodeAt?_append, Option.bind_eq_some_iff] at h
  obtain ⟨between, hbetween, h⟩ := h
  obtain ⟨members, -, rfl, -, -⟩ := nodeAt?_cons_eq_some_iff.mp h
  exact ⟨members, hbetween⟩

/-- A text at a path is a string that stands there. -/
theorem textAt?_eq_some_iff : tree.textAt? path = some text ↔ tree.nodeAt? path = some (.string text) := by
  induction path generalizing tree with
  | nil =>
    rw [nodeAt?_nil, Option.some.injEq]
    cases tree with
    | string value => rw [textAt?, Option.some.injEq, Json.string.injEq]
    | _ => exact iff_of_false nofun nofun
  | cons key path ih =>
    cases tree with
    | object members =>
      rw [textAt?, nodeAt?_object, Option.bind_eq_some_iff, Option.bind_eq_some_iff]
      simp only [ih]
    | _ => exact iff_of_false nofun nofun

/-- The texts behind a node are those of the tree behind the path of the node. -/
theorem textAt?_append (h : tree.nodeAt? first = some node) (second : KeyPath) :
    tree.textAt? (first ++ second) = node.textAt? second := by
  refine Option.ext fun text => ?_
  rw [textAt?_eq_some_iff, textAt?_eq_some_iff, nodeAt?_append, h]
  rfl

theorem HasDistinctKeys.of_lookup (hd : (Json.object members).HasDistinctKeys) {child : Json} (h : members.lookup key = some child) :
    child.HasDistinctKeys := by
  rw [HasDistinctKeys, membersHaveDistinctKeys_iff] at hd
  exact hd.2 _ (mem_of_lookup h)

/-! ## The order of paths -/

/-- One path comes before another in a tree: where they part, its key is the earlier one of the object there. -/
def Precedes (tree : Json) (first second : KeyPath) : Prop :=
  ∃ base members key rest other rest', tree.nodeAt? base = some (.object members) ∧ [key, other].Sublist (members.map Prod.fst) ∧
    first = base ++ key :: rest ∧ second = base ++ other :: rest'

/-- Paths through one object are in order when their first keys are, or else when what follows one first key is. -/
theorem precedes_cons_iff :
    (Json.object members).Precedes (key :: first) (other :: second) ↔
      [key, other].Sublist (members.map Prod.fst) ∨
        key = other ∧ ∃ child, members.lookup key = some child ∧ child.Precedes first second := by
  constructor
  · rintro ⟨base, inner, k, rest, o, rest', hinner, hkeys, hfirst, hsecond⟩
    cases base with
    | nil =>
      obtain rfl := Json.object.inj (Option.some.inj hinner)
      obtain ⟨rfl, -⟩ := List.cons.inj hfirst
      obtain ⟨rfl, -⟩ := List.cons.inj hsecond
      exact Or.inl hkeys
    | cons b base =>
      obtain ⟨rfl, rfl⟩ := List.cons.inj hfirst
      obtain ⟨rfl, rfl⟩ := List.cons.inj hsecond
      obtain ⟨child, hchild, hinner⟩ := Option.bind_eq_some_iff.mp hinner
      exact Or.inr ⟨rfl, child, hchild, base, inner, k, rest, o, rest', hinner, hkeys, rfl, rfl⟩
  · rintro (hkeys | ⟨rfl, child, hchild, base, inner, k, rest, o, rest', hinner, hkeys, rfl, rfl⟩)
    · exact ⟨[], members, key, first, other, second, nodeAt?_nil _, hkeys, rfl, rfl⟩
    · refine ⟨key :: base, inner, k, rest, o, rest', ?_, hkeys, rfl, rfl⟩
      rw [nodeAt?_object, hchild]
      exact hinner

/-- Of two keys that occur once only one comes first. -/
theorem not_sublist_swap {keys : List String} (hd : keys.Nodup) (h : [key, other].Sublist keys) : ¬[other, key].Sublist keys := by
  induction keys with
  | nil => cases h
  | cons k keys ih =>
    obtain ⟨hnew, hd⟩ := List.nodup_cons.mp hd
    intro hswap
    cases h with
    | cons _ h =>
      cases hswap with
      | cons _ hswap => exact ih hd h hswap
      | cons_cons _ _ => exact hnew (h.subset (List.mem_cons_of_mem _ List.mem_cons_self))
    | cons_cons _ h =>
      cases hswap with
      | cons _ hswap => exact hnew (hswap.subset (List.mem_cons_of_mem _ List.mem_cons_self))
      | cons_cons _ _ => exact hnew (h.subset List.mem_cons_self)

/-- Only paths through an object are in order. -/
theorem Precedes.exists_cons (h : tree.Precedes first second) :
    ∃ members key rest other rest', tree = .object members ∧ first = key :: rest ∧ second = other :: rest' := by
  obtain ⟨base, members, key, rest, other, rest', hbase, -, rfl, rfl⟩ := h
  cases base with
  | nil => exact ⟨members, key, rest, other, rest', Option.some.inj ((nodeAt?_nil tree).symm.trans hbase), rfl, rfl⟩
  | cons b base =>
    obtain ⟨outer, -, rfl, -, -⟩ := nodeAt?_cons_eq_some_iff.mp hbase
    exact ⟨outer, b, _, b, _, rfl, rfl, rfl⟩

/-- Where no key occurs twice, of two paths only one comes first. -/
theorem Precedes.asymm (hd : tree.HasDistinctKeys) (h : tree.Precedes first second) : ¬tree.Precedes second first := by
  induction first generalizing tree second with
  | nil =>
    obtain ⟨_, _, _, _, _, -, hfirst, -⟩ := h.exists_cons
    cases hfirst
  | cons key first ih =>
    obtain ⟨members, _, _, other, second, rfl, -, rfl⟩ := h.exists_cons
    rw [precedes_cons_iff] at h ⊢
    rintro (hswap | ⟨rfl, child, hchild, hback⟩)
    · rcases h with hkeys | ⟨rfl, -⟩
      · exact not_sublist_swap hd.1 hkeys hswap
      · exact not_sublist_swap hd.1 hswap hswap
    · rcases h with hkeys | ⟨-, child', hchild', hforth⟩
      · exact not_sublist_swap hd.1 hkeys hkeys
      · obtain rfl := Option.some.inj (hchild.symm.trans hchild')
        exact ih (hd.of_lookup hchild) hforth hback

theorem Precedes.irrefl (hd : tree.HasDistinctKeys) (path : KeyPath) : ¬tree.Precedes path path := fun h => h.asymm hd h

end SealedConfig.Json
