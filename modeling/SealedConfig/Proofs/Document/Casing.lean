import Mathlib.Data.List.Pairwise
import SealedConfig.Proofs.Document.Editing
import SealedConfig.Proofs.Json.Looking

/-!
# Looking up keys in any case

A look-up takes the keys that are there as they are, and otherwise ignores the case of ASCII letters. Where no object has two keys that
differ in case only, the case in which a path is given makes no difference.
-/

namespace SealedConfig

open Json (sameIgnoringCase)

namespace KeyPath

/-- Two paths differ at most in the case of ASCII letters, key by key. -/
def SameIgnoringCase (path other : KeyPath) : Prop := List.Forall₂ (fun key key' => sameIgnoringCase key key' = true) path other

end KeyPath

namespace Json

variable {tree child : Json} {members : Members} {key other : String}

/-! ## Keys in another case -/

theorem sameIgnoringCase_iff : sameIgnoringCase key other = true ↔ key.toList.map Char.toLower = other.toList.map Char.toLower :=
  beq_iff_eq

theorem sameIgnoringCase_refl (key : String) : sameIgnoringCase key key = true := beq_self_eq_true _

theorem sameIgnoringCase_comm (key other : String) : sameIgnoringCase key other = sameIgnoringCase other key := BEq.comm

/-- A third key is the same as either of two that differ in case only. -/
theorem sameIgnoringCase_congr (h : sameIgnoringCase key other = true) (third : String) :
    sameIgnoringCase third key = sameIgnoringCase third other := by
  unfold sameIgnoringCase
  rw [sameIgnoringCase_iff.mp h]

/-! ## Objects whose keys are apart -/

/-- No two keys of an object differ in case only. -/
def Members.KeysApart (members : Members) : Prop := members.Pairwise fun a b => sameIgnoringCase a.1 b.1 = false

/-- No object that is reached through objects only has two keys that differ in case only. -/
def HasKeysApart (tree : Json) : Prop := ∀ path members, tree.nodeAt? path = some (.object members) → Members.KeysApart members

namespace Members.KeysApart

/-- No key occurs twice. -/
theorem nodup (h : Members.KeysApart members) : (members.map Prod.fst).Nodup := by
  refine List.pairwise_map.mpr (h.imp fun {a b} hab heq => ?_)
  rw [heq, sameIgnoringCase_refl] at hab
  cases hab

/-- Only one member has a key, in whatever case. -/
theorem eq (h : Members.KeysApart members) {a b : String × Json} (ha : a ∈ members) (hb : b ∈ members)
    (hsame : sameIgnoringCase a.1 b.1 = true) : a = b := by
  have hsymm : Std.Symm fun a b : String × Json => sameIgnoringCase a.1 b.1 = false :=
    ⟨fun a b hab => (sameIgnoringCase_comm b.1 a.1).trans hab⟩
  by_contra hne
  have happart := List.Pairwise.forall h ha hb hne
  rw [hsame] at happart
  cases happart

/-- The value of a key is that of the member that has the key, in whatever case. -/
theorem find?_eq_some_iff (h : Members.KeysApart members) :
    Members.find? members key = some child ↔ ∃ spelled, (spelled, child) ∈ members ∧ sameIgnoringCase spelled key = true := by
  rw [Members.find?_eq_map_entry?, Option.map_eq_some_iff]
  constructor
  · rintro ⟨⟨spelled, value⟩, hentry, rfl⟩
    exact ⟨spelled, mem_of_lookup (Members.lookup_of_entry? h.nodup hentry), Members.sameIgnoringCase_of_entry? hentry⟩
  · rintro ⟨spelled, hmem, hsame⟩
    -- the look-up finds a member, and there is only one to be found
    obtain ⟨⟨found, value⟩, hentry⟩ : ∃ entry, Members.entry? members key = some entry := by
      unfold Members.entry?
      split
      · exact ⟨_, rfl⟩
      · exact Option.isSome_iff_exists.mp (List.find?_isSome.mpr ⟨_, hmem, hsame⟩)
    refine ⟨(found, value), hentry, ?_⟩
    have hfound : (found, value) ∈ members := mem_of_lookup (Members.lookup_of_entry? h.nodup hentry)
    have hboth : sameIgnoringCase found spelled = true := by
      rw [sameIgnoringCase_iff, sameIgnoringCase_iff.mp hsame]
      exact sameIgnoringCase_iff.mp (Members.sameIgnoringCase_of_entry? hentry)
    exact congrArg Prod.snd (h.eq hfound hmem hboth)

/-- The case in which a key is given makes no difference. -/
theorem find?_congr (h : Members.KeysApart members) (hsame : sameIgnoringCase key other = true) :
    Members.find? members key = Members.find? members other := by
  refine Option.ext fun child => ?_
  rw [h.find?_eq_some_iff, h.find?_eq_some_iff]
  simp only [sameIgnoringCase_congr hsame]

end Members.KeysApart

/-! ## Paths in another case -/

theorem HasKeysApart.keysApart (h : (Json.object members).HasKeysApart) : Members.KeysApart members := h [] members (nodeAt?_nil _)

theorem HasKeysApart.of_mem (h : (Json.object members).HasKeysApart) (hchild : (key, child) ∈ members) : child.HasKeysApart := by
  intro path inner hinner
  refine h (key :: path) inner ?_
  rw [nodeAt?_object, lookup_of_mem h.keysApart.nodup hchild]
  exact hinner

theorem hasKeysApart_object_iff :
    (Json.object members).HasKeysApart ↔ Members.KeysApart members ∧ ∀ member ∈ members, member.2.HasKeysApart := by
  refine ⟨fun h => ⟨h.keysApart, fun member hmember => h.of_mem hmember⟩, ?_⟩
  rintro ⟨happart, hvalues⟩ path inner hinner
  cases path with
  | nil =>
    obtain rfl := Json.object.inj (Option.some.inj hinner)
    exact happart
  | cons key path =>
    obtain ⟨child, hchild, hinner⟩ := Option.bind_eq_some_iff.mp hinner
    exact hvalues _ (mem_of_lookup hchild) path inner hinner

theorem hasKeysApart_string (text : String) : (Json.string text).HasKeysApart := by
  intro path members hmembers
  cases path <;> cases hmembers

/-- Where the keys of every object are apart, the case in which a path is given makes no difference. -/
theorem get?_congr (h : tree.HasKeysApart) {path path' : KeyPath} (hsame : path.SameIgnoringCase path') :
    tree.get? path = tree.get? path' := by
  induction hsame generalizing tree with
  | nil => rfl
  | cons hkey _ ih =>
    cases tree with
    | object members =>
      rw [get?, get?, member?, member?, h.keysApart.find?_congr hkey]
      refine Option.bind_congr fun child hchild => ?_
      obtain ⟨spelled, hmem, -⟩ := h.keysApart.find?_eq_some_iff.mp hchild
      exact ih (h.of_mem hmem)
    | _ => rfl

end Json

namespace Document

/-- A look-up prefers keys as they are given and otherwise ignores the case of ASCII letters. A path all of whose keys are there leads
to its node, whatever keys beside them differ from them in case only. Whatever a look-up finds stands at a path that differs from the
given one at most in the case of ASCII letters. And in a document without keys beside each other that differ in case only, two paths
that differ in case only find the same. -/
theorem get?_ignoresCase (doc : Document) :
    (∀ path node, doc.tree.nodeAt? path = some node → doc.get? path = some node) ∧
      (∀ path node, doc.get? path = some node → ∃ spelled : KeyPath, spelled.SameIgnoringCase path ∧ doc.tree.nodeAt? spelled = some node) ∧
      (doc.tree.HasKeysApart → ∀ path other : KeyPath, path.SameIgnoringCase other → doc.get? path = doc.get? other) := by
  refine ⟨fun path node hnode => ?_, fun path node hget => ?_, fun happart path other hsame => Json.get?_congr happart hsame⟩
  · rw [get?, Json.get?_eq_map_trace?, Json.trace?_of_nodeAt? hnode]
    rfl
  · rw [get?, Json.get?_eq_map_trace?] at hget
    obtain ⟨⟨spelled, found⟩, htrace, rfl⟩ := Option.map_eq_some_iff.mp hget
    exact ⟨spelled, Json.forall₂_of_trace? htrace, Json.nodeAt?_of_trace? doc.hasDistinctKeys htrace⟩

/-- A document in which no keys beside each other differ in case only. -/
def apart : Document where
  path := none
  raw := "\x7b\"Core\": \x7b\"Password\": \"x\", \"Pass\": \"y\"\x7d\x7d"
  tree := .object [("Core", .object [("Password", .string "x"), ("Pass", .string "y")])]
  readTree_raw := by cbv

/-- There a text is found in whatever case its path is given. -/
theorem get?_ignoresCase_apart :
    apart.tree.HasKeysApart ∧ KeyPath.SameIgnoringCase ["core", "PASSWORD"] ["Core", "Password"] ∧
      apart.get? ["core", "PASSWORD"] = some (.string "x") := by
  have hkeys : apart.tree.HasKeysApart := by
    refine Json.hasKeysApart_object_iff.mpr ⟨by unfold Json.Members.KeysApart; decide, ?_⟩
    refine List.forall_mem_singleton.mpr (Json.hasKeysApart_object_iff.mpr ⟨by unfold Json.Members.KeysApart; decide, ?_⟩)
    exact List.forall_mem_cons.mpr ⟨Json.hasKeysApart_string "x", List.forall_mem_singleton.mpr (Json.hasKeysApart_string "y")⟩
  have hsame : KeyPath.SameIgnoringCase ["core", "PASSWORD"] ["Core", "Password"] := by
    unfold KeyPath.SameIgnoringCase
    decide
  obtain ⟨hexact, -, hblind⟩ := get?_ignoresCase apart
  exact ⟨hkeys, hsame, (hblind hkeys _ _ hsame).trans (hexact ["Core", "Password"] _ rfl)⟩

end Document

end SealedConfig
