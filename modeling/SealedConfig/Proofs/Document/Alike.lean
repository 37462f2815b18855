import Mathlib.Data.List.Forall2
import SealedConfig.Bulk.Basic
import SealedConfig.Proofs.Document.Scan
import SealedConfig.Proofs.Section.Veiled

/-!
# Trees that differ in their texts

Two trees are alike when they have the same shape and the same keys, numbers and truth values, and their texts differ only in what a
protector cannot be seen to make of them: texts at one place are both empty or not, both marked or not, and open alike. What is found in
one of two such trees is found in the other, and where reading one fails, reading the other fails with the same fault.
-/

namespace SealedConfig

open Json (RecordField)
open Outcome (FailAlike Parallel)

/-- Two values are both empty or not, both marked or not, and both open or fail to for the same reason. -/
structure Envelope.Alike (p : Protector) (value other : String) : Prop where
  empty : value = "" ↔ other = ""
  marked : isMarked value = isMarked other
  opens : FailAlike (disclose p value) (disclose p other)

theorem Envelope.Alike.refl (p : Protector) (value : String) : Envelope.Alike p value value := ⟨.rfl, rfl, fun _ => .rfl⟩

namespace Json

mutual

/-- Two trees have the same shape and differ at most in texts, which are alike one by one. -/
inductive Alike (p : Protector) : Json → Json → Prop where
  | null : Alike p .null .null
  | bool (value : Bool) : Alike p (.bool value) (.bool value)
  | number (value : Number) : Alike p (.number value) (.number value)
  | string {text other : String} (h : Envelope.Alike p text other) : Alike p (.string text) (.string other)
  | array {items others : List Json} (h : ItemsAlike p items others) : Alike p (.array items) (.array others)
  | object {members others : List (String × Json)} (h : MembersAlike p members others) : Alike p (.object members) (.object others)

/-- Two lists are as long as each other, and their items are alike one by one. -/
inductive ItemsAlike (p : Protector) : List Json → List Json → Prop where
  | nil : ItemsAlike p [] []
  | cons {item other : Json} {items others : List Json} (h : Alike p item other) (hrest : ItemsAlike p items others) :
    ItemsAlike p (item :: items) (other :: others)

/-- Two objects have the same keys in the same order, and alike values under them. -/
inductive MembersAlike (p : Protector) : List (String × Json) → List (String × Json) → Prop where
  | nil : MembersAlike p [] []
  | cons (key : String) {value other : Json} {members others : List (String × Json)} (h : Alike p value other)
    (hrest : MembersAlike p members others) : MembersAlike p ((key, value) :: members) ((key, other) :: others)

end

variable {p : Protector}

/-! ## Looking up -/

/-- What the members hold under a key is alike, or they have no such key. -/
theorem MembersAlike.lookup {members others : Members} (h : MembersAlike p members others) (key : String) :
    Option.Rel (Alike p) (members.lookup key) (others.lookup key) := by
  induction members generalizing others with
  | nil =>
    cases h
    exact .none
  | cons member members ih =>
    cases h with
    | cons found hvalue hrest =>
      rw [List.lookup_cons, List.lookup_cons]
      split
      · exact .some hvalue
      · exact ih hrest

/-- The first member whose key is as wanted is at the same place among the members of both. -/
theorem MembersAlike.find? {members others : Members} (h : MembersAlike p members others) (wanted : String → Bool) :
    Option.Rel (Alike p) ((List.find? (fun member => wanted member.1) members).map Prod.snd)
      ((List.find? (fun member => wanted member.1) others).map Prod.snd) := by
  induction members generalizing others with
  | nil =>
    cases h
    exact .none
  | cons member members ih =>
    cases h with
    | cons found hvalue hrest =>
      rw [List.find?_cons, List.find?_cons]
      cases wanted found with
      | true => exact .some hvalue
      | false => exact ih hrest

/-- What a key is found to have, exactly spelled or not, is alike. -/
theorem MembersAlike.found {members others : Members} (h : MembersAlike p members others) (key : String) :
    Option.Rel (Alike p) (Members.find? members key) (Members.find? others key) := by
  unfold Members.find?
  rcases Outcome.cases_of_rel (h.lookup key) with ⟨hnone, hnone'⟩ | ⟨value, other, hvalue, hother, halike⟩
  · rw [hnone, hnone']
    exact h.find? fun found => sameIgnoringCase found key
  · rw [hvalue, hother]
    exact .some halike

/-- What is found at a path of keys is alike. -/
theorem Alike.get? {tree other : Json} (h : tree.Alike p other) (keys : List String) :
    Option.Rel (Alike p) (tree.get? keys) (other.get? keys) := by
  induction keys generalizing tree other with
  | nil => exact .some h
  | cons key keys ih =>
    rw [Json.get?, Json.get?]
    have hmember : Option.Rel (Alike p) (tree.member? key) (other.member? key) := by
      cases h with
      | object hmembers => exact hmembers.found key
      | _ => exact .none
    exact Outcome.rel_bind hmember fun _ _ halike => ih halike

/-- The texts of trees that are alike are alike, or neither is a text. -/
theorem Alike.text? {tree other : Json} (h : tree.Alike p other) : Option.Rel (Envelope.Alike p) tree.text? other.text? := by
  cases h with
  | string htext => exact .some htext
  | _ => exact .none

end Json

/-! ## Scanning -/

namespace Scan

open ScanAux

variable {p : Protector}

/-- Two secrets stand at the same path, and their texts are alike. -/
structure FieldsAlike (p : Protector) (field other : SecretField) : Prop where
  path : field.path = other.path
  value : Envelope.Alike p field.value other.value
  isEncrypted : field.isEncrypted = other.isEncrypted

/-- Alike texts under a key are both listed or not. -/
theorem alike_leaf {text other : String} (h : Envelope.Alike p text other) (path : KeyPath) (key : String) :
    List.Forall₂ (FieldsAlike p) (leaf path key text) (leaf path key other) := by
  unfold leaf
  by_cases hempty : text = ""
  · rw [if_pos hempty, if_pos (h.empty.mp hempty)]
    exact .nil
  · rw [if_neg hempty, if_neg fun hother => hempty (h.empty.mpr hother), h.marked]
    split
    · exact .cons ⟨rfl, h, rfl⟩ .nil
    · exact .nil

mutual

/-- The same secrets are listed of trees that are alike. -/
theorem alike_below {tree other : Json} (h : tree.Alike p other) (path : KeyPath) :
    List.Forall₂ (FieldsAlike p) (below path tree) (below path other) := by
  cases h with
  | object hmembers => exact alike_ofMembers hmembers path
  | _ => exact .nil

theorem alike_ofMembers {members others : List (String × Json)} (h : Json.MembersAlike p members others) (path : KeyPath) :
    List.Forall₂ (FieldsAlike p) (ofMembers path members) (ofMembers path others) := by
  cases h with
  | nil => exact .nil
  | @cons key value other members others hvalue hrest =>
    have hmember : List.Forall₂ (FieldsAlike p) (ofMember path key value) (ofMember path key other) := by
      cases hvalue with
      | string htext => exact alike_leaf htext _ key
      | object hinner => exact alike_ofMembers hinner _
      | _ => exact .nil
    rw [ofMembers_cons, ofMembers_cons]
    exact List.rel_append hmember (alike_ofMembers hrest path)

end

/-- An operation is for the same secrets of documents with alike trees. -/
theorem alike_targets {doc twin : Document} (h : doc.tree.Alike p twin.tree) (operation : Operation) :
    List.Forall₂ (FieldsAlike p) (operation.targets (ofDocument doc)) (operation.targets (ofDocument twin)) := by
  have hlisted := alike_below h []
  cases operation with
  | encrypt =>
    refine List.rel_filter (fun field other hfield => ?_) hlisted
    dsimp only
    rw [hfield.isEncrypted]
  | decrypt =>
    refine List.rel_filter (fun field other hfield => ?_) hlisted
    dsimp only
    rw [hfield.isEncrypted]

/-- Alike secrets stand at the same paths. -/
theorem paths_of_alike {fields others : List SecretField} (h : List.Forall₂ (FieldsAlike p) fields others) :
    others.map SecretField.path = fields.map SecretField.path := by
  induction h with
  | nil => rfl
  | cons hfield _ ih => rw [List.map_cons, List.map_cons, hfield.path, ih]

end Scan

/-! ## Records of texts -/

namespace Json

variable {p : Protector} {tree other : Json}

/-- What the fields of two records hold is alike, field by field. -/
abbrev HeldAlike (p : Protector) : List (Option String) → List (Option String) → Prop :=
  List.Forall₂ (Option.Rel (Envelope.Alike p))

/-- What a field holds in two trees is alike, or neither will do. -/
theorem Alike.ofValue? (h : tree.Alike p other) (field : RecordField) :
    Option.Rel (Option.Rel (Envelope.Alike p)) (field.ofValue? tree) (field.ofValue? other) := by
  cases h with
  | string htext => exact .some (.some htext)
  | null =>
    rw [RecordField.ofValue?]
    split
    · exact .some .none
    · exact .none
  | _ => exact .none

/-- What a field that is not given holds is alike to itself. -/
theorem alike_absent (field : RecordField) : Option.Rel (Envelope.Alike p) field.absent field.absent := by
  cases field.absent with
  | none => exact .none
  | some text => exact .some (.refl p text)

/-- What a field holds is alike when what is given for it is. -/
theorem alike_ofGiven? {given twin : Option Json} (h : Option.Rel (Alike p) given twin) (field : RecordField) :
    Option.Rel (Option.Rel (Envelope.Alike p)) (field.ofGiven? given) (field.ofGiven? twin) := by
  cases h with
  | some h => exact h.ofValue? field
  | none => exact .some (alike_absent field)

theorem fillInOrder?_cons (field : RecordField) (fields : List RecordField) (item : Json) (items : List Json) :
    fillInOrder? (field :: fields) (item :: items) =
      (field.ofValue? item).bind fun held => (fillInOrder? fields items).map (held :: ·) := by
  rw [fillInOrder?]
  cases field.ofValue? item <;> cases fillInOrder? fields items <;> rfl

/-- What the members of alike objects give the fields is alike. -/
theorem alike_fillByKey? {members others : Members} (h : MembersAlike p members others) (fields : List RecordField) :
    Option.Rel (HeldAlike p) (fillByKey? members fields) (fillByKey? others fields) := by
  induction fields with
  | nil => exact .some .nil
  | cons field fields ih =>
    rw [fillByKey?_cons, fillByKey?_cons]
    exact Outcome.rel_bind (alike_ofGiven? (h.lookup field.key) field) fun _ _ halike =>
      Outcome.rel_map ih fun _ _ hmore => .cons halike hmore

/-- What the items of alike lists give the fields is alike. -/
theorem alike_fillInOrder? {items others : List Json} (h : ItemsAlike p items others) (fields : List RecordField) :
    Option.Rel (HeldAlike p) (fillInOrder? fields items) (fillInOrder? fields others) := by
  induction fields generalizing items others with
  | nil =>
    cases h with
    | nil => exact .some .nil
    | cons _ _ => exact .none
  | cons field fields ih =>
    cases h with
    | nil => exact Outcome.rel_map (ih .nil) fun _ _ hmore => .cons (alike_absent field) hmore
    | cons hitem hrest =>
      rw [fillInOrder?_cons, fillInOrder?_cons]
      exact Outcome.rel_bind (hitem.ofValue? field) fun _ _ halike =>
        Outcome.rel_map (ih hrest) fun _ _ hmore => .cons halike hmore

/-- Trees that are alike hold alike texts in the fields of a record, or neither is such a record. -/
theorem Alike.recordValues? (h : tree.Alike p other) (fields : List RecordField) :
    Option.Rel (HeldAlike p) (recordValues? fields tree) (recordValues? fields other) := by
  cases h with
  | object hmembers => exact alike_fillByKey? hmembers fields
  | array hitems => exact alike_fillInOrder? hitems fields
  | _ => exact .none

end Json

/-! ## Reading what a document holds -/

variable {p : Protector} {doc twin : Document}

/-- Opening what alike fields hold fails alike. -/
theorem Section.failAlike_discloseValue {value other : Option String} (h : Option.Rel (Envelope.Alike p) value other) :
    FailAlike (discloseValue p value) (discloseValue p other) := by
  cases h with
  | none => exact fun _ => .rfl
  | some h =>
    unfold discloseValue
    dsimp only
    rw [h.marked]
    split
    · exact h.opens.map some some
    · exact fun _ => ⟨nofun, nofun⟩

/-- The first field that does not open is the same one, for the same reason, when what the fields hold is alike. -/
theorem Section.failAlike_discloseValues {values others : List (Option String)}
    (h : Json.HeldAlike p values others) (typeName : String) (fields : List RecordField) :
    FailAlike (discloseValues p typeName fields values) (discloseValues p typeName fields others) := by
  induction h generalizing fields with
  | nil => exact fun _ => .rfl
  | @cons value other values others hvalue _ ih =>
    cases fields with
    | nil => exact fun _ => .rfl
    | cons field fields =>
      rcases (failAlike_discloseValue hvalue).cases with ⟨source, hfail, hfail'⟩ | ⟨held, twin, hheld, htwin⟩
      · rw [discloseValues, discloseValues, hfail, hfail']
        exact fun _ => .rfl
      · rw [discloseValues, discloseValues, hheld, htwin]
        exact (ih fields).map _ _

/-- A section of documents with alike trees binds in both or in neither, for the same reason. -/
theorem Section.failAlike_bind (h : doc.tree.Alike p twin.tree) (α : Type) [Options α] (name : String) :
    FailAlike (Section.bind α doc name p) (Section.bind α twin name p) := by
  have hnode : Json.Alike p ((doc.get? (KeyPath.parse name)).getD (.object []))
      ((twin.get? (KeyPath.parse name)).getD (.object [])) := by
    rcases Outcome.cases_of_rel (h.get? (KeyPath.parse name)) with ⟨hnone, hnone'⟩ | ⟨node, other, hnode, hother, halike⟩
    · rw [Document.get?, Document.get?, hnone, hnone']
      exact .object .nil
    · rw [Document.get?, Document.get?, hnode, hother]
      exact halike
  unfold Section.bind
  dsimp only
  rcases Outcome.cases_of_rel (hnode.recordValues? (Options.fields α)) with ⟨hnone, hnone'⟩ | ⟨values, others, hvalues, hothers, halike⟩
  · rw [hnone, hnone']
    exact fun _ => .rfl
  · rw [hvalues, hothers]
    exact (failAlike_discloseValues halike _ _).map _ _

theorem ApiKey.ofItems?_cons (item : Json) (items : List Json) :
    ofItems? (item :: items) = (ofJson? item).bind fun key => (ofItems? items).map (key :: ·) := by
  rw [ofItems?]
  cases ofJson? item <;> cases ofItems? items <;> rfl

/-- Lists of alike records are lists of keys, or neither is. -/
theorem ApiKey.rel_ofItems? {items others : List Json} (h : Json.ItemsAlike p items others) :
    Option.Rel (fun _ _ => True) (ofItems? items) (ofItems? others) := by
  induction items generalizing others with
  | nil =>
    cases h
    exact .some trivial
  | cons item items ih =>
    cases h with
    | @cons _ other _ others hitem hrest =>
      have hkey : Option.Rel (fun _ _ => True) (ofJson? item) (ofJson? other) :=
        Outcome.rel_map (hitem.recordValues? fields) fun _ _ _ => trivial
      rw [ofItems?_cons, ofItems?_cons]
      exact Outcome.rel_bind hkey fun _ _ _ => Outcome.rel_map (ih hrest) fun _ _ _ => trivial

/-- Documents with alike trees both list keys, or neither does, for the same reason. -/
theorem ApiKey.failAlike_ofDocument (h : doc.tree.Alike p twin.tree) : FailAlike (ofDocument doc) (ofDocument twin) := by
  unfold ofDocument
  rw [Document.get?, Document.get?]
  rcases Outcome.cases_of_rel (h.get? (KeyPath.parse sectionName)) with ⟨hnone, hnone'⟩ | ⟨node, other, hnode, hother, halike⟩
  · rw [hnone, hnone']
    exact fun _ => .rfl
  · rw [hnode, hother]
    cases halike with
    | array hitems =>
      dsimp only
      rcases Outcome.cases_of_rel (rel_ofItems? hitems) with ⟨hnone, hnone'⟩ | ⟨keys, twins, hkeys, htwins, -⟩
      · rw [hnone, hnone']
        exact fun _ => .rfl
      · rw [hkeys, htwins]
        exact fun _ => ⟨nofun, nofun⟩
    | _ => exact fun _ => .rfl

end SealedConfig
