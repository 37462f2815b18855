import SealedConfig.ApiKey
import SealedConfig.Proofs.Cipher.Envelope
import SealedConfig.Proofs.Json.Looking

/-!
# Envelopes in the place of texts

A tree is veiled when envelopes stand in the place of some of its texts. Whoever opens what is marked reads the same from a veiled
tree as from the tree itself: sections bind to the same value or the same fault, and the same keys are listed.
-/

namespace SealedConfig

open Json (RecordField)

/-- A value is marked and opens to a text that is neither empty nor marked. -/
structure Envelope.Hides (p : Protector) (value text : String) : Prop where
  nonempty : text ≠ ""
  plain : Envelope.isMarked text = false
  marked : Envelope.isMarked value = true
  opens : Envelope.disclose p value = .ok text

/-- The first text is the second one, or hides it. -/
def VeilsText (p : Protector) (veiled text : Option String) : Prop :=
  veiled = text ∨ ∃ value plain, veiled = some value ∧ text = some plain ∧ Envelope.Hides p value plain

/-- The first tree is the second one with values that hide texts in the place of these. -/
def Json.Veils (p : Protector) (veiled tree : Json) : Prop :=
  ∃ texts : KeyPath → Option String, veiled = tree.withTexts texts ∧
    ∀ path value, texts path = some value → ∃ text, tree.textAt? path = some text ∧ Envelope.Hides p value text

variable {p : Protector} {veiled tree : Json}

theorem VeilsText.refl (text : Option String) : VeilsText p text text := Or.inl rfl

/-- No text is hidden by none, and a text by a text. -/
theorem VeilsText.cases {veiled text : Option String} (h : VeilsText p veiled text) :
    veiled = none ∧ text = none ∨ ∃ value plain, veiled = some value ∧ text = some plain ∧ VeilsText p (some value) (some plain) := by
  rcases h with rfl | ⟨value, plain, rfl, rfl, hhides⟩
  · cases veiled with
    | none => exact Or.inl ⟨rfl, rfl⟩
    | some value => exact Or.inr ⟨value, value, rfl, rfl, .refl _⟩
  · exact Or.inr ⟨value, plain, rfl, rfl, Or.inr ⟨value, plain, rfl, rfl, hhides⟩⟩

/-- What hides a text is as little empty as the text is. -/
theorem VeilsText.filter {veiled text : Option String} (h : VeilsText p veiled text) :
    VeilsText p (veiled.filter (· ≠ "")) (text.filter (· ≠ "")) := by
  rcases h with rfl | ⟨value, plain, rfl, rfl, hhides⟩
  · exact .refl _
  · have hvalue : (some value).filter (fun stored => decide (stored ≠ "")) = some value := by
      simp [Envelope.ne_empty_of_isMarked hhides.marked]
    have hplain : (some plain).filter (fun stored => decide (stored ≠ "")) = some plain := by simp [hhides.nonempty]
    rw [hvalue, hplain]
    exact Or.inr ⟨value, plain, rfl, rfl, hhides⟩

/-! ## Veiled trees -/

namespace Json

/-- In the place of a text stands that text or a value that hides it. -/
theorem Veils.string {text : String} (h : Json.Veils p veiled (.string text)) :
    ∃ value, veiled = .string value ∧ VeilsText p (some value) (some text) := by
  obtain ⟨texts, rfl, hhides⟩ := h
  refine ⟨(texts []).getD text, rfl, ?_⟩
  cases hvalue : texts [] with
  | none => exact .refl _
  | some value =>
    obtain ⟨text', htext, hhides⟩ := hhides [] value hvalue
    obtain rfl : text = text' := Option.some.inj htext
    exact Or.inr ⟨value, text, rfl, rfl, hhides⟩

/-- A veiled object has the same keys, and veiled values under them. -/
theorem Veils.object {members : Members} (h : Json.Veils p veiled (.object members)) :
    ∃ others : Members, veiled = .object others ∧
      ∀ key, Option.Rel (Json.Veils p) (others.lookup key) (members.lookup key) := by
  obtain ⟨texts, rfl, hhides⟩ := h
  refine ⟨_, rfl, ?_⟩
  intro key
  rw [lookup_membersWithTexts]
  cases hchild : members.lookup key with
  | none => exact .none
  | some child =>
    refine .some ⟨_, rfl, ?_⟩
    intro path value hvalue
    obtain ⟨text, htext, hhides⟩ := hhides (key :: path) value hvalue
    rw [textAt?, hchild] at htext
    exact ⟨text, htext, hhides⟩

/-- What a look-up finds in a veiled tree is what it finds in the tree, veiled. -/
theorem Veils.get? (hd : tree.HasDistinctKeys) (h : Json.Veils p veiled tree) (keys : List String) :
    Option.Rel (Json.Veils p) (veiled.get? keys) (tree.get? keys) := by
  obtain ⟨texts, rfl, hhides⟩ := h
  rw [get?_eq_map_trace?, get?_eq_map_trace?, trace?_withTexts]
  cases htrace : tree.trace? keys with
  | none => exact .none
  | some found =>
    obtain ⟨base, node⟩ := found
    refine .some ⟨fun path => texts (base ++ path), rfl, ?_⟩
    intro path value hvalue
    obtain ⟨text, htext, hhides⟩ := hhides (base ++ path) value hvalue
    rw [textAt?_append (nodeAt?_of_trace? hd htrace)] at htext
    exact ⟨text, htext, hhides⟩

end Json

/-! ## Opening what is marked -/

/-- A value that hides a text holds that text after opening. -/
theorem VeilsText.discloseValue_eq {veiled text : Option String} (h : VeilsText p veiled text) :
    Section.discloseValue p veiled = Section.discloseValue p text := by
  rcases h with rfl | ⟨value, plain, rfl, rfl, hhides⟩
  · rfl
  · have hvalue : Section.discloseValue p (some value) = .ok (some plain) := by
      rw [Section.discloseValue, if_pos hhides.marked, hhides.opens]
      rfl
    have hplain : Section.discloseValue p (some plain) = .ok (some plain) := by
      rw [Section.discloseValue, hhides.plain]
      rfl
    rw [hvalue, hplain]

namespace Json

/-- What a field holds in a veiled value is what it holds in the value, veiled. -/
theorem Veils.ofValue? (h : Json.Veils p veiled tree) (field : RecordField) :
    Option.Rel (VeilsText p) (field.ofValue? veiled) (field.ofValue? tree) := by
  cases tree with
  | string text =>
    obtain ⟨value, rfl, hveils⟩ := h.string
    exact .some hveils
  | object members =>
    obtain ⟨others, rfl, -⟩ := h.object
    exact .none
  | null =>
    obtain ⟨texts, rfl, -⟩ := h
    change Option.Rel _ (field.ofValue? .null) _
    rw [RecordField.ofValue?]
    split
    · exact .some (.refl _)
    · exact .none
  | _ =>
    obtain ⟨texts, rfl, -⟩ := h
    exact .none

theorem veils_ofGiven? {given value : Option Json} (h : Option.Rel (Json.Veils p) given value) (field : RecordField) :
    Option.Rel (VeilsText p) (field.ofGiven? given) (field.ofGiven? value) := by
  cases h with
  | some h => exact h.ofValue? field
  | none => exact .some (.refl _)

theorem fillByKey?_cons (members : Members) (field : RecordField) (fields : List RecordField) :
    fillByKey? members (field :: fields) =
      (field.ofGiven? (members.lookup field.key)).bind fun held => (fillByKey? members fields).map (held :: ·) := by
  rw [fillByKey?]
  cases field.ofGiven? (members.lookup field.key) <;> cases fillByKey? members fields <;> rfl

/-- The first field is opened first, and what comes of the others only passes through. -/
theorem discloseValues_comp_cons (typeName : String) (field : RecordField) (fields : List RecordField) (value : Option String) :
    Section.discloseValues p typeName (field :: fields) ∘ (value :: ·) =
      (fun rest => match Section.discloseValue p value with
        | .error source => .error (.undecipherable typeName field.name source)
        | .ok held => rest.map (held :: ·)) ∘ Section.discloseValues p typeName fields := rfl

/-- After opening, the fields hold in veiled members what they hold in the members. -/
theorem discloseValues_fillByKey? {others members : Members}
    (h : ∀ key, Option.Rel (Json.Veils p) (others.lookup key) (members.lookup key)) (typeName : String)
    (fields : List RecordField) :
    (fillByKey? others fields).map (Section.discloseValues p typeName fields) =
      (fillByKey? members fields).map (Section.discloseValues p typeName fields) := by
  induction fields with
  | nil => rfl
  | cons field fields ih =>
    rw [fillByKey?_cons, fillByKey?_cons]
    rcases Outcome.cases_of_rel (veils_ofGiven? (h field.key) field) with ⟨hveiled, hheld⟩ | ⟨veiled, held, hveiled, hheld, hveils⟩
    · rw [hveiled, hheld]
      rfl
    · rw [hveiled, hheld, Option.bind_some, Option.bind_some, Option.map_map, Option.map_map,
        discloseValues_comp_cons, discloseValues_comp_cons, hveils.discloseValue_eq, ← Option.map_map, ← Option.map_map, ih]

/-- After opening, the fields of a record hold in a veiled tree what they hold in the tree. -/
theorem Veils.discloseValues_eq (h : Json.Veils p veiled tree) (typeName : String) (fields : List RecordField) :
    (recordValues? fields veiled).map (Section.discloseValues p typeName fields) =
      (recordValues? fields tree).map (Section.discloseValues p typeName fields) := by
  cases tree with
  | string text =>
    obtain ⟨value, rfl, -⟩ := h.string
    rfl
  | object members =>
    obtain ⟨others, rfl, hlookup⟩ := h.object
    exact discloseValues_fillByKey? hlookup typeName fields
  | _ =>
    -- nothing inside a list is veiled
    obtain ⟨texts, rfl, -⟩ := h
    rfl

end Json

/-- A section binds to its fields after opening. -/
theorem Section.bind_eq (α : Type) [Options α] (doc : Document) (name : String) (p : Protector) :
    Section.bind α doc name p =
      match (Json.recordValues? (Options.fields α) ((doc.get? (KeyPath.parse name)).getD (.object []))).map
        (Section.discloseValues p (Options.typeName α) (Options.fields α)) with
      | none => .error (.shape name (Options.typeName α))
      | some values => values.map Options.ofValues := by
  simp only [Section.bind]
  cases Json.recordValues? (Options.fields α) ((doc.get? (KeyPath.parse name)).getD (.object [])) <;> rfl

/-! ## Veiled documents -/

/-- The tree of the first document is that of the second one, veiled. -/
def Document.Veils (p : Protector) (veiled doc : Document) : Prop := Json.Veils p veiled.tree doc.tree

namespace Document

variable {edited doc : Document}

/-- What is found in a veiled document is what is found in the document, veiled. -/
theorem Veils.get? (hd : doc.tree.HasDistinctKeys) (h : Document.Veils p edited doc) (path : KeyPath) :
    Option.Rel (Json.Veils p) (edited.get? path) (doc.get? path) := Json.Veils.get? hd h path

/-- The text that is found in a veiled document is the one that is found in the document, or hides it. -/
theorem Veils.getText? (hd : doc.tree.HasDistinctKeys) (h : Document.Veils p edited doc) (path : KeyPath) :
    VeilsText p (edited.getText? path) (doc.getText? path) := by
  unfold Document.getText?
  rcases Outcome.cases_of_rel (h.get? hd path) with ⟨hveiled, hnode⟩ | ⟨veiled, node, hveiled, hnode, hveils⟩
  · rw [hveiled, hnode]
    exact .refl _
  · rw [hveiled, hnode, Option.bind_some, Option.bind_some]
    cases node with
    | string text =>
      obtain ⟨value, rfl, htext⟩ := hveils.string
      exact htext
    | _ =>
      obtain ⟨texts, rfl, -⟩ := hveils
      exact .refl _

/-- A section binds in a veiled document to what it binds to in the document. -/
theorem Veils.bind_eq (hd : doc.tree.HasDistinctKeys) (h : Document.Veils p edited doc) (α : Type) [Options α] (name : String) :
    Section.bind α edited name p = Section.bind α doc name p := by
  have hnode : Json.Veils p ((edited.get? (KeyPath.parse name)).getD (.object []))
      ((doc.get? (KeyPath.parse name)).getD (.object [])) := by
    rcases Outcome.cases_of_rel (h.get? hd (KeyPath.parse name)) with ⟨hveiled, hnode⟩ | ⟨veiled, node, hveiled, hnode, hveils⟩
    · rw [hveiled, hnode]
      exact ⟨fun _ => none, rfl, nofun⟩
    · rw [hveiled, hnode]
      exact hveils
  rw [Section.bind_eq, Section.bind_eq, hnode.discloseValues_eq]

/-- A veiled document lists the keys that the document lists, as they are stored: nothing inside a list is veiled. -/
theorem Veils.apiKeys_eq (hd : doc.tree.HasDistinctKeys) (h : Document.Veils p edited doc) :
    ApiKey.ofDocument edited = ApiKey.ofDocument doc := by
  unfold ApiKey.ofDocument
  rcases Outcome.cases_of_rel (h.get? hd (KeyPath.parse ApiKey.sectionName)) with
    ⟨hveiled, hnode⟩ | ⟨veiled, node, hveiled, hnode, hveils⟩
  · rw [hveiled, hnode]
  · rw [hveiled, hnode]
    cases node with
    | string text =>
      obtain ⟨value, rfl, -⟩ := hveils.string
      rfl
    | object members =>
      obtain ⟨others, rfl, -⟩ := hveils.object
      rfl
    | _ =>
      obtain ⟨texts, rfl, -⟩ := hveils
      rfl

end Document

end SealedConfig
