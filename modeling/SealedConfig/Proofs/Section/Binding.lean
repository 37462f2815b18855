import SealedConfig.Proofs.Document.Alike

/-!
# Sections that bind

A section binds exactly when it is a record of the fields of its type and all that is marked in it opens. What a record is, is said
field by field, whether members give the fields by key or items in order; a section that is one binds to its fields opened one by one,
or to nothing at all, with the first field that does not open.
-/

namespace SealedConfig

/-! ## Records -/

namespace Json

/-- What a tree gives for a field: the member of an object under its key, or the item of a list at its place. -/
def given? (tree : Json) (place : Nat) (field : RecordField) : Option Json :=
  match tree with
  | .object members => members.lookup field.key
  | .array items => items[place]?
  | _ => none

/-- What a field holds, given a value or none: a text, nothing for null if the field is optional, and without a value its default. -/
inductive RecordField.Holds (field : RecordField) : Option Json → Option String → Prop
  | text (value : String) : Holds field (some (.string value)) (some value)
  | null (h : field.isOptional = true) : Holds field (some .null) none
  | absent (h : field.isOptional = true) : Holds field none none
  | empty (h : field.isOptional = false) : Holds field none (some "")

/-- Values are held by fields, one by each, given what there is for the fields. -/
structure Fills (given : Nat → RecordField → Option Json) (fields : List RecordField) (values : List (Option String)) : Prop where
  length : values.length = fields.length
  holds : ∀ place (field : RecordField) value, fields[place]? = some field → values[place]? = some value →
    field.Holds (given place field) value

/-- A tree is a record of fields that hold values: an object, or a list that is not longer than the fields. -/
structure IsRecord (fields : List RecordField) (tree : Json) (values : List (Option String)) : Prop where
  shape : (∃ members, tree = .object members) ∨ ∃ items, tree = .array items ∧ items.length ≤ fields.length
  fills : Fills tree.given? fields values

variable {given : Nat → RecordField → Option Json} {field : RecordField} {fields : List RecordField} {value : Option String}
  {values : List (Option String)} {tree : Json}

theorem ofGiven?_eq_some_iff {node : Option Json} : field.ofGiven? node = some value ↔ field.Holds node value := by
  constructor
  · intro h
    cases node with
    | none =>
      obtain rfl := Option.some.inj h
      rw [RecordField.absent]
      cases hoptional : field.isOptional with
      | true => exact .absent hoptional
      | false => exact .empty hoptional
    | some node =>
      cases node with
      | string text =>
        obtain rfl := Option.some.inj h
        exact .text text
      | null =>
        change (if field.isOptional then some none else none) = some value at h
        split at h
        · rename_i hoptional
          obtain rfl := Option.some.inj h
          exact .null hoptional
        · cases h
      | _ => cases h
  · intro h
    cases h with
    | text text => rfl
    | null hoptional =>
      change (if field.isOptional then some none else none) = some none
      rw [if_pos hoptional]
    | absent hoptional => rw [RecordField.ofGiven?, RecordField.absent, if_pos hoptional]
    | empty hoptional => rw [RecordField.ofGiven?, RecordField.absent, hoptional, if_neg Bool.false_ne_true]

theorem fills_nil : Fills given [] values ↔ values = [] := by
  constructor
  · intro h
    exact List.length_eq_zero_iff.mp h.length
  · rintro rfl
    exact ⟨rfl, nofun⟩

/-- The first field holds the first value, and the other fields hold the others. -/
theorem fills_cons : Fills given (field :: fields) values ↔
    ∃ value rest, values = value :: rest ∧ field.Holds (given 0 field) value ∧ Fills (fun place => given (place + 1)) fields rest := by
  constructor
  · rintro ⟨hlength, hholds⟩
    cases values with
    | nil => cases hlength
    | cons value rest =>
      refine ⟨value, rest, rfl, hholds 0 field value rfl rfl, Nat.succ.inj hlength, ?_⟩
      intro place other held hother hheld
      exact hholds (place + 1) other held hother hheld
  · rintro ⟨value, rest, rfl, hfirst, hlength, hrest⟩
    refine ⟨congrArg (· + 1) hlength, ?_⟩
    intro place other held hother hheld
    cases place with
    | zero =>
      obtain rfl := Option.some.inj hother
      obtain rfl := Option.some.inj hheld
      exact hfirst
    | succ place => exact hrest place other held hother hheld

theorem fillByKey?_eq_some_iff {members : Members} :
    fillByKey? members fields = some values ↔ Fills (fun _ field => members.lookup field.key) fields values := by
  induction fields generalizing values with
  | nil =>
    rw [fills_nil]
    exact ⟨fun h => (Option.some.inj h).symm, fun h => h ▸ rfl⟩
  | cons field fields ih =>
    rw [fillByKey?_cons, fills_cons, Option.bind_eq_some_iff]
    simp only [ofGiven?_eq_some_iff, Option.map_eq_some_iff, ih]
    constructor
    · rintro ⟨value, hvalue, rest, hrest, rfl⟩
      exact ⟨value, rest, rfl, hvalue, hrest⟩
    · rintro ⟨value, rest, rfl, hvalue, hrest⟩
      exact ⟨value, hvalue, rest, hrest, rfl⟩

/-- The first item, or none, is for the first field, and the items behind it are for the other fields. -/
theorem fillInOrder?_cons_left (field : RecordField) (fields : List RecordField) (items : List Json) :
    fillInOrder? (field :: fields) items =
      (field.ofGiven? items[0]?).bind fun held => (fillInOrder? fields items.tail).map (held :: ·) := by
  cases items with
  | nil => rfl
  | cons item items => exact fillInOrder?_cons field fields item items

theorem fillInOrder?_eq_some_iff {items : List Json} :
    fillInOrder? fields items = some values ↔ items.length ≤ fields.length ∧ Fills (fun place _ => items[place]?) fields values := by
  induction fields generalizing items values with
  | nil =>
    rw [fills_nil]
    cases items with
    | nil => exact ⟨fun h => ⟨Nat.le_refl _, (Option.some.inj h).symm⟩, fun h => h.2 ▸ rfl⟩
    | cons item items => exact ⟨nofun, fun h => absurd h.1 (by simp)⟩
  | cons field fields ih =>
    have hlength : items.tail.length ≤ fields.length ↔ items.length ≤ (field :: fields).length := by
      rw [List.length_tail, List.length_cons, Nat.sub_le_iff_le_add]
    rw [fills_cons, fillInOrder?_cons_left, Option.bind_eq_some_iff]
    simp only [ofGiven?_eq_some_iff, Option.map_eq_some_iff, ih, hlength, List.getElem?_tail]
    constructor
    · rintro ⟨value, hvalue, rest, ⟨hle, hrest⟩, rfl⟩
      exact ⟨hle, value, rest, rfl, hvalue, hrest⟩
    · rintro ⟨hle, value, rest, rfl, hvalue, hrest⟩
      exact ⟨value, hvalue, rest, ⟨hle, hrest⟩, rfl⟩

/-- Reading a record gives its values, and fails on what is no record. -/
theorem recordValues?_eq_some_iff : recordValues? fields tree = some values ↔ IsRecord fields tree values := by
  cases tree with
  | object members =>
    rw [recordValues?, fillByKey?_eq_some_iff]
    exact ⟨fun h => ⟨Or.inl ⟨members, rfl⟩, h⟩, fun h => h.fills⟩
  | array items =>
    rw [recordValues?, fillInOrder?_eq_some_iff]
    constructor
    · rintro ⟨hlength, hfills⟩
      exact ⟨Or.inr ⟨items, rfl, hlength⟩, hfills⟩
    · rintro ⟨⟨members, hshape⟩ | ⟨others, hshape, hlength⟩, hfills⟩
      · cases hshape
      · cases hshape
        exact ⟨hlength, hfills⟩
  | _ =>
    constructor
    · intro h
      cases h
    · rintro ⟨⟨members, hshape⟩ | ⟨others, hshape, -⟩, -⟩ <;> cases hshape

/-- A field that is not optional holds a text. -/
theorem RecordField.Holds.isSome {node : Option Json} (h : field.Holds node value) (hrequired : field.isOptional = false) :
    value.isSome = true := by
  cases h with
  | text text => rfl
  | null hoptional => cases hoptional.symm.trans hrequired
  | absent hoptional => cases hoptional.symm.trans hrequired
  | empty h => rfl

end Json

/-! ## Opening the fields -/

namespace Section

open Json (RecordField)

variable {p : Protector} {typeName : String} {fields : List RecordField} {value held : Option String}
  {values opened : List (Option String)}

/-- A value opens if it is marked: it is no text, or one without the marker, or an envelope that opens. -/
def Opens (p : Protector) (value : Option String) : Prop :=
  ∀ text, value = some text → Envelope.isMarked text = true → ∃ plain, Envelope.disclose p text = .ok plain

/-- What a field holds, opened: a text as it is, if it is not marked, and else the text in its envelope. -/
inductive Opened (p : Protector) : Option String → Option String → Prop
  | absent : Opened p none none
  | plain {text : String} (h : Envelope.isMarked text = false) : Opened p (some text) (some text)
  | sealed {text plain : String} (h : Envelope.isMarked text = true) (hopen : Envelope.disclose p text = .ok plain) :
    Opened p (some text) (some plain)

/-- The first of the fields whose value does not open: those before it open, and it does not for a fault. -/
structure FailsFirst (p : Protector) (fields : List RecordField) (values : List (Option String)) (place : Nat)
    (field : RecordField) (fault : Envelope.Fault) : Prop where
  field_eq : fields[place]? = some field
  fails : ∃ text, values[place]? = some (some text) ∧ Envelope.isMarked text = true ∧ Envelope.disclose p text = .error fault
  before : ∀ earlier value, earlier < place → values[earlier]? = some value → Opens p value

theorem discloseValue_eq_ok_iff : discloseValue p value = .ok held ↔ Opened p value held := by
  cases value with
  | none =>
    constructor
    · intro h
      obtain rfl := Except.ok.inj h
      exact .absent
    · rintro ⟨⟩
      rfl
  | some text =>
    rw [discloseValue]
    split
    · rename_i hm
      constructor
      · intro h
        obtain ⟨plain, hopen, rfl⟩ := Outcome.exists_of_map h
        exact .sealed hm hopen
      · intro h
        cases h with
        | plain hplain => cases hm.symm.trans hplain
        | sealed _ hopen => rw [hopen, Outcome.ok_map]
    · rename_i hm
      constructor
      · intro h
        obtain rfl := Except.ok.inj h
        exact .plain (Bool.eq_false_iff.mpr hm)
      · intro h
        cases h with
        | plain _ => rfl
        | sealed hmarked _ => exact absurd hmarked hm

theorem discloseValue_eq_error_iff {fault : Envelope.Fault} : discloseValue p value = .error fault ↔
    ∃ text, value = some text ∧ Envelope.isMarked text = true ∧ Envelope.disclose p text = .error fault := by
  cases value with
  | none => exact ⟨nofun, fun ⟨_, h, _⟩ => nomatch h⟩
  | some text =>
    rw [discloseValue]
    split
    · rename_i hm
      cases hopen : Envelope.disclose p text with
      | ok plain =>
        constructor
        · intro h
          cases h
        · rintro ⟨other, heq, -, hfault⟩
          obtain rfl := Option.some.inj heq
          cases hopen.symm.trans hfault
      | error other =>
        constructor
        · intro h
          obtain rfl : other = fault := Except.error.inj h
          exact ⟨text, rfl, hm, hopen⟩
        · rintro ⟨_, heq, -, hfault⟩
          obtain rfl := Option.some.inj heq
          rw [Except.error.inj (hopen.symm.trans hfault)]
          rfl
    · rename_i hm
      constructor
      · intro h
        cases h
      · rintro ⟨other, heq, hmarked, -⟩
        obtain rfl := Option.some.inj heq
        exact absurd hmarked hm

/-- A value opens if it is marked, exactly when there is something that it holds opened. -/
theorem opens_iff : Opens p value ↔ ∃ held, Opened p value held := by
  constructor
  · intro h
    cases hresult : discloseValue p value with
    | ok held => exact ⟨held, discloseValue_eq_ok_iff.mp hresult⟩
    | error fault =>
      obtain ⟨text, rfl, hm, hfault⟩ := discloseValue_eq_error_iff.mp hresult
      obtain ⟨plain, hopen⟩ := h text rfl hm
      cases hopen.symm.trans hfault
  · rintro ⟨held, hopened⟩ text rfl hm
    cases hopened with
    | plain hplain => cases hm.symm.trans hplain
    | sealed _ hopen => exact ⟨_, hopen⟩

/-- All values open exactly when there are values that they hold opened. -/
theorem forall_opens_iff : (∀ value ∈ values, Opens p value) ↔ ∃ opened, List.Forall₂ (Opened p) values opened := by
  induction values with
  | nil => exact ⟨fun _ => ⟨[], .nil⟩, fun _ => nofun⟩
  | cons value values ih =>
    rw [List.forall_mem_cons, opens_iff, ih]
    constructor
    · rintro ⟨⟨held, hheld⟩, opened, hopened⟩
      exact ⟨held :: opened, .cons hheld hopened⟩
    · rintro ⟨_, _ | ⟨hheld, hopened⟩⟩
      exact ⟨⟨_, hheld⟩, _, hopened⟩

/-- The fields hold after opening what their values hold, opened one by one. -/
theorem discloseValues_eq_ok_iff (hlength : values.length = fields.length) :
    discloseValues p typeName fields values = .ok opened ↔ List.Forall₂ (Opened p) values opened := by
  induction fields generalizing values opened with
  | nil =>
    obtain rfl := List.length_eq_zero_iff.mp hlength
    rw [List.forall₂_nil_left_iff]
    constructor
    · intro h
      exact (Except.ok.inj h).symm
    · rintro rfl
      rfl
  | cons field fields ih =>
    cases values with
    | nil => cases hlength
    | cons value values =>
      have ih := @ih values
      rw [discloseValues, List.forall₂_cons_left_iff]
      simp only [← discloseValue_eq_ok_iff]
      cases discloseValue p value with
      | error fault =>
        constructor
        · intro h
          cases h
        · rintro ⟨held, rest, h, -⟩
          cases h
      | ok held =>
        constructor
        · intro h
          obtain ⟨rest, hrest, rfl⟩ := Outcome.exists_of_map h
          exact ⟨held, rest, rfl, (ih (Nat.succ.inj hlength)).mp hrest, rfl⟩
        · rintro ⟨other, rest, hother, hrest, rfl⟩
          obtain rfl : held = other := Except.ok.inj hother
          dsimp only
          rw [(ih (Nat.succ.inj hlength)).mpr hrest, Outcome.ok_map]

/-- Opening the fields fails at the first one that does not open. -/
theorem discloseValues_of_failsFirst {place : Nat} {field : RecordField} {fault : Envelope.Fault}
    (h : FailsFirst p fields values place field fault) :
    discloseValues p typeName fields values = .error (.undecipherable typeName field.name fault) := by
  induction place generalizing fields values with
  | zero =>
    obtain ⟨hfield, ⟨text, htext, hm, hfault⟩, -⟩ := h
    cases fields with
    | nil => cases hfield
    | cons first fields =>
      cases values with
      | nil => cases htext
      | cons value values =>
        obtain rfl := Option.some.inj hfield
        obtain rfl := Option.some.inj htext
        rw [discloseValues, discloseValue_eq_error_iff.mpr ⟨text, rfl, hm, hfault⟩]
  | succ place ih =>
    obtain ⟨hfield, hfails, hbefore⟩ := h
    cases fields with
    | nil => cases hfield
    | cons first fields =>
      cases values with
      | nil =>
        obtain ⟨text, htext, -⟩ := hfails
        cases htext
      | cons value values =>
        obtain ⟨held, hheld⟩ := opens_iff.mp (hbefore 0 value (Nat.succ_pos place) rfl)
        have hrest : FailsFirst p fields values place field fault :=
          ⟨hfield, hfails, fun earlier other hearlier hother => hbefore (earlier + 1) other (Nat.succ_lt_succ hearlier) hother⟩
        rw [discloseValues, discloseValue_eq_ok_iff.mpr hheld]
        dsimp only
        rw [ih hrest]
        rfl

/-- If some value does not open, one of the fields is the first whose value does not. -/
theorem exists_failsFirst (hlength : values.length = fields.length) (h : ∃ value ∈ values, ¬Opens p value) :
    ∃ place field fault, FailsFirst p fields values place field fault := by
  induction fields generalizing values with
  | nil =>
    obtain rfl := List.length_eq_zero_iff.mp hlength
    obtain ⟨value, hvalue, -⟩ := h
    cases hvalue
  | cons field fields ih =>
    cases values with
    | nil => cases hlength
    | cons value values =>
      cases hresult : discloseValue p value with
      | error fault =>
        obtain ⟨text, rfl, hm, hfault⟩ := discloseValue_eq_error_iff.mp hresult
        exact ⟨0, field, fault, rfl, ⟨text, rfl, hm, hfault⟩, fun earlier _ hearlier => absurd hearlier (Nat.not_lt_zero earlier)⟩
      | ok held =>
        have hopens : Opens p value := opens_iff.mpr ⟨held, discloseValue_eq_ok_iff.mp hresult⟩
        have hrest : ∃ value ∈ values, ¬Opens p value := by
          obtain ⟨other, hother, hfails⟩ := h
          rcases List.mem_cons.mp hother with rfl | hother
          · exact absurd hopens hfails
          · exact ⟨other, hother, hfails⟩
        obtain ⟨place, other, fault, hfield, hfails, hbefore⟩ := ih (Nat.succ.inj hlength) hrest
        refine ⟨place + 1, other, fault, hfield, hfails, ?_⟩
        intro earlier value' hearlier hvalue'
        cases earlier with
        | zero => exact Option.some.inj hvalue' ▸ hopens
        | succ earlier => exact hbefore earlier value' (Nat.lt_of_succ_lt_succ hearlier) hvalue'

/-! ## Types of sections -/

/-- A value that fits a field: a field that is not optional holds a text. -/
def Fits (field : RecordField) (value : Option String) : Prop := field.isOptional = false → value.isSome = true

/-- A type whose values are made from fields and taken apart into the same ones. -/
def IsLawful (α : Type) [Options α] : Prop :=
  ∀ values, List.Forall₂ Fits (Options.fields α) values → Options.toValues (Options.ofValues values : α) = values

theorem isLawful_core : IsLawful CoreOptions := by
  intro values h
  cases h with | cons h0 h =>
  cases h with | cons h1 h =>
  cases h with | cons h2 h =>
  cases h with | cons h3 h =>
  cases h
  obtain ⟨baseUrl, rfl⟩ := Option.isSome_iff_exists.mp (h0 rfl)
  obtain ⟨loginEndpoint, rfl⟩ := Option.isSome_iff_exists.mp (h1 rfl)
  obtain ⟨username, rfl⟩ := Option.isSome_iff_exists.mp (h2 rfl)
  obtain ⟨password, rfl⟩ := Option.isSome_iff_exists.mp (h3 rfl)
  rfl

theorem isLawful_signing : IsLawful SigningOptions := by
  intro values h
  cases h with | cons h0 h =>
  cases h with | cons h1 h =>
  cases h with | cons h2 h =>
  cases h
  obtain ⟨privateKeyPath, rfl⟩ := Option.isSome_iff_exists.mp (h0 rfl)
  obtain ⟨certificatePath, rfl⟩ := Option.isSome_iff_exists.mp (h1 rfl)
  rfl

theorem isLawful_database : IsLawful DatabaseOptions := by
  intro values h
  cases h with | cons h0 h =>
  cases h
  obtain ⟨connectionString, rfl⟩ := Option.isSome_iff_exists.mp (h0 rfl)
  rfl

/-- What the fields of a record hold fits them, opened or not. -/
theorem fits_of_opened {given : Nat → RecordField → Option Json} (h : Json.Fills given fields values)
    (hopened : List.Forall₂ (Opened p) values opened) : List.Forall₂ Fits fields opened := by
  induction fields generalizing given values opened with
  | nil =>
    obtain rfl := Json.fills_nil.mp h
    cases hopened
    exact .nil
  | cons field fields ih =>
    obtain ⟨value, rest, rfl, hfirst, hrest⟩ := Json.fills_cons.mp h
    cases hopened with
    | cons hvalue hopened =>
      refine .cons ?_ (ih hrest hopened)
      intro hrequired
      have hsome := hfirst.isSome hrequired
      cases hvalue with
      | absent => cases hsome
      | plain _ => rfl
      | sealed _ _ => rfl

/-! ## Binding -/

/-- The section of a document; one that is missing is an empty object. -/
def nodeOf (doc : Document) (sectionName : String) : Json := (doc.get? (KeyPath.parse sectionName)).getD (.object [])

/-- A section binds as a type, or fails to, just as its fields open. -/
structure BindsAsOpened (α : Type) [Options α] (doc : Document) (sectionName : String) (p : Protector) : Prop where
  /-- A record binds exactly when all that is marked in it opens. -/
  binds : ∀ values, Json.IsRecord (Options.fields α) (nodeOf doc sectionName) values →
    ((∃ options, bind α doc sectionName p = .ok options) ↔ ∀ value ∈ values, Opens p value)
  /-- It binds to its fields, opened one by one. -/
  opened : ∀ values, Json.IsRecord (Options.fields α) (nodeOf doc sectionName) values →
    ∀ options, bind α doc sectionName p = .ok options → List.Forall₂ (Opened p) values (Options.toValues options)
  /-- If some field does not open, there is a first one, and it is reported. -/
  fails : ∀ values, Json.IsRecord (Options.fields α) (nodeOf doc sectionName) values → (∃ value ∈ values, ¬Opens p value) →
    ∃ place field fault, FailsFirst p (Options.fields α) values place field fault ∧
      bind α doc sectionName p = .error (.undecipherable (Options.typeName α) field.name fault)
  /-- What is no record is reported as such. -/
  shape : (∀ values, ¬Json.IsRecord (Options.fields α) (nodeOf doc sectionName) values) →
    bind α doc sectionName p = .error (.shape sectionName (Options.typeName α))

/-- A record binds to what its fields hold after opening. -/
theorem bind_of_isRecord (α : Type) [Options α] {doc : Document} {sectionName : String}
    (h : Json.IsRecord (Options.fields α) (nodeOf doc sectionName) values) :
    bind α doc sectionName p = (discloseValues p (Options.typeName α) (Options.fields α) values).map Options.ofValues := by
  have hvalues := Json.recordValues?_eq_some_iff.mpr h
  rw [nodeOf] at hvalues
  rw [bind_eq, hvalues]
  rfl

/-- A section of any type whose values are made of their fields binds just as its fields open. -/
theorem bindsAsOpened {α : Type} [Options α] (hlawful : IsLawful α) (doc : Document) (sectionName : String) (p : Protector) :
    BindsAsOpened α doc sectionName p where
  binds values h := by
    rw [bind_of_isRecord α h, forall_opens_iff]
    constructor
    · rintro ⟨options, hbind⟩
      obtain ⟨opened, hopened, -⟩ := Outcome.exists_of_map hbind
      exact ⟨opened, (discloseValues_eq_ok_iff h.fills.length).mp hopened⟩
    · rintro ⟨opened, hopened⟩
      rw [(discloseValues_eq_ok_iff h.fills.length).mpr hopened]
      exact ⟨Options.ofValues opened, rfl⟩
  opened values h options hbind := by
    rw [bind_of_isRecord α h] at hbind
    obtain ⟨opened, hopened, rfl⟩ := Outcome.exists_of_map hbind
    have hopened := (discloseValues_eq_ok_iff h.fills.length).mp hopened
    rwa [hlawful opened (fits_of_opened h.fills hopened)]
  fails values h hvalue := by
    obtain ⟨place, field, fault, hfirst⟩ := exists_failsFirst h.fills.length hvalue
    refine ⟨place, field, fault, hfirst, ?_⟩
    rw [bind_of_isRecord α h, discloseValues_of_failsFirst hfirst]
    rfl
  shape h := by
    have hvalues : Json.recordValues? (Options.fields α) (nodeOf doc sectionName) = none :=
      Option.eq_none_iff_forall_not_mem.mpr fun values hmem => h values (Json.recordValues?_eq_some_iff.mp hmem)
    rw [nodeOf] at hvalues
    rw [bind_eq, hvalues]
    rfl

/-- Binding is all or nothing for every type of section. When the section, or an empty object in its stead, is a record of the fields,
it binds exactly when every text in it that is marked opens, and then each field is what was opened, if it was marked, and else what is
stored; if some field does not open, the first such field of the type is reported. What is no such record is reported as that, whatever
it holds. -/
theorem binds_all_or_nothing (doc : Document) (sectionName : String) (p : Protector) :
    BindsAsOpened CoreOptions doc sectionName p ∧ BindsAsOpened SigningOptions doc sectionName p ∧
      BindsAsOpened DatabaseOptions doc sectionName p :=
  ⟨bindsAsOpened isLawful_core doc sectionName p, bindsAsOpened isLawful_signing doc sectionName p,
    bindsAsOpened isLawful_database doc sectionName p⟩

end Section

end SealedConfig
