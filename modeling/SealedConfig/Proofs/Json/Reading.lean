import SealedConfig.Proofs.Json.Atom

/-!
# The reader and sources

The reader reads the text of a source as its tree, and every text that it reads is the text of a source. So whatever is true of
the trees of sources is true of the trees of texts.
-/

namespace SealedConfig.Json

open Outcome

/-! ## One step of the reader -/

namespace ReadingAux

/-- Blanks in front of a value do not count. -/
theorem readValue_gap (gap : Gap) (room limit : Nat) (s : List Char) :
    readValue (room + 1) limit (gap.text ++ s) = readValue (room + 1) limit s := by
  rw [readValue, readValue, skipBlanks_gap]

/-- Items are one item and the end of the list, or one item, a comma and further items. -/
theorem readItems_succ_eq_ok_iff {room limit : Nat} {s after : List Char} {items : List Json} :
    readItems (room + 1) limit s = .ok (items, after) ↔
      ∃ item rest, readValue room limit s = .ok (item, rest) ∧
        ((skipBlanks rest = ']' :: after ∧ items = [item]) ∨
          ∃ rest' c tail more, skipBlanks rest = ',' :: rest' ∧ skipBlanks rest' = c :: tail ∧ c ≠ ']' ∧
            readItems room limit (c :: tail) = .ok (more, after) ∧ items = item :: more) := by
  constructor
  · intro h
    rw [readItems] at h
    obtain ⟨⟨item, rest⟩, hv, h⟩ := exists_of_bind h
    refine ⟨item, rest, hv, ?_⟩
    dsimp only at h
    split at h
    · cases h
    · rename_i hs
      cases h
      exact Or.inl ⟨hs, rfl⟩
    · rename_i rest' hs
      split at h
      · cases h
      · cases h
      · rename_i hnil hclose
        obtain ⟨⟨more, after'⟩, hm, h⟩ := exists_of_bind h
        cases h
        rcases ht : skipBlanks rest' with _ | ⟨c, tail⟩
        · exact (hnil ht).elim
        · rw [ht] at hm
          refine Or.inr ⟨rest', c, tail, more, hs, ht, ?_, hm, rfl⟩
          rintro rfl
          exact hclose _ ht
    · cases h
  · rintro ⟨item, rest, hv, ⟨hs, rfl⟩ | ⟨rest', c, tail, more, hs, ht, hc, hm, rfl⟩⟩
    · rw [readItems, hv, ok_bind]
      dsimp only
      rw [hs]
      rfl
    · rw [readItems, hv, ok_bind]
      dsimp only
      simp only [hs, ht]
      split
      · rename_i heq; cases heq
      · rename_i heq; cases heq; exact absurd rfl hc
      · rw [hm]; rfl

/-- Members are a key, a colon and a value, and then the end of the object, or a comma and further members. -/
theorem readPairs_succ_eq_ok_iff {room limit : Nat} {s after : List Char} {pairs : List (String × Json)} :
    readPairs (room + 1) limit s = .ok (pairs, after) ↔
      ∃ key rest rest' value rest'', readString s = .ok (key, rest) ∧ skipBlanks rest = ':' :: rest' ∧
        readValue room limit rest' = .ok (value, rest'') ∧
        ((skipBlanks rest'' = '\x7d' :: after ∧ pairs = [(String.ofList key, value)]) ∨
          ∃ behind tail more, skipBlanks rest'' = ',' :: behind ∧ skipBlanks behind = '"' :: tail ∧
            readPairs room limit tail = .ok (more, after) ∧ pairs = (String.ofList key, value) :: more) := by
  constructor
  · intro h
    rw [readPairs] at h
    obtain ⟨⟨key, rest⟩, hk, h⟩ := exists_of_bind h
    dsimp only at h
    split at h
    · cases h
    · rename_i rest' hcolon
      obtain ⟨⟨value, rest''⟩, hv, h⟩ := exists_of_bind h
      refine ⟨key, rest, rest', value, rest'', hk, hcolon, hv, ?_⟩
      dsimp only at h
      split at h
      · cases h
      · rename_i hs
        cases h
        exact Or.inl ⟨hs, rfl⟩
      · rename_i behind hs
        split at h
        · cases h
        · rename_i tail ht
          obtain ⟨⟨more, after'⟩, hm, h⟩ := exists_of_bind h
          cases h
          exact Or.inr ⟨behind, tail, more, hs, ht, hm, rfl⟩
        · cases h
        · cases h
      · cases h
    · cases h
  · rintro ⟨key, rest, rest', value, rest'', hk, hcolon, hv, ⟨hs, rfl⟩ | ⟨behind, tail, more, hs, ht, hm, rfl⟩⟩
    · rw [readPairs, hk, ok_bind]
      dsimp only
      rw [hcolon]
      show (readValue room limit rest' >>= _) = _
      rw [hv, ok_bind]
      dsimp only
      rw [hs]
      rfl
    · rw [readPairs, hk, ok_bind]
      dsimp only
      rw [hcolon]
      show (readValue room limit rest' >>= _) = _
      rw [hv, ok_bind]
      dsimp only
      simp only [hs, ht]
      rw [hm]
      rfl

/-- A closing bracket ends a scalar. -/
theorem stops_gap_cons (gap : Gap) {c : Char} (h : Span.endsScalar c = true) (rest : List Char) :
    Stops (gap.text ++ c :: rest) :=
  stops_gap (stops_cons h rest) gap

/-- A key is met at its opening quote. -/
theorem skipBlanks_part (part : KeyPart) (rest : List Char) :
    skipBlanks (part.text ++ rest) =
      '"' :: (part.name.inside ++ '"' :: (part.colon.text ++ ':' :: (part.after.text ++ rest))) := by
  simp only [KeyPart.text, List.append_assoc, skipBlanks_gap]
  rw [Literal.text, List.cons_append, List.cons_append, skipBlanks_cons (by decide)]
  simp

theorem skipBlanks_colon (part : KeyPart) (rest : List Char) :
    skipBlanks (part.colon.text ++ ':' :: rest) = ':' :: rest := by
  rw [skipBlanks_gap, skipBlanks_cons (by decide)]

/-- The value of a member is read behind the blanks that follow its colon. -/
theorem readValue_part (value : Source) (part : KeyPart) {room limit : Nat} {rest : List Char} {result : Json × List Char}
    (h : readValue room limit (value.text ++ rest) = .ok result) :
    readValue room limit (part.after.text ++ (value.text ++ rest)) = .ok result := by
  cases room with
  | zero => cases h
  | succ room => rw [readValue_gap, h]

end ReadingAux

open ReadingAux

/-! ## Sources are read as their trees -/

mutual

/-- The text of a source is read as its tree, whatever ends it. -/
theorem Source.read (src : Source) (room limit : Nat) {rest : List Char} (hroom : 2 * src.text.length ≤ room)
    (hlimit : src.depth ≤ limit) (hr : Stops rest) : readValue room limit (src.text ++ rest) = .ok (src.tree, rest) := by
  obtain ⟨c, tail, hc, -⟩ := src.exists_head
  obtain ⟨room, rfl⟩ : ∃ r, room = r + 1 := ⟨room - 1, by rw [hc, List.length_cons] at hroom; omega⟩
  match src with
  | .atom atom => exact atom.read room limit rest hlimit hr
  | .string literal =>
    have h : skipBlanks ((Source.string literal).text ++ rest) = '"' :: (literal.inside ++ '"' :: rest) := by
      rw [Source.skipBlanks_text]
      simp [Source.text, Literal.text]
    rw [readValue_quote h, literal.spells.read, ok_map, Source.tree]
    simp
  | .array items =>
    rw [Source.depth] at hlimit
    obtain ⟨limit, rfl⟩ : ∃ l, limit = l + 1 := ⟨limit - 1, by omega⟩
    have h : skipBlanks ((Source.array items).text ++ rest) = '[' :: (items.text ++ ']' :: rest) := by
      rw [Source.skipBlanks_text]
      simp [Source.text]
    simp only [Source.text, List.length_append, List.length_cons, List.length_nil] at hroom
    obtain ⟨d, tail, hs, hd, hi⟩ := items.read room limit rest (by omega) (by omega)
    rw [readValue_bracket h, hs]
    split
    · rename_i heq; cases heq
    · rename_i heq; cases heq; exact absurd hd (by decide)
    · rw [hi, ok_map, Source.tree]
  | .object fields =>
    rw [Source.depth] at hlimit
    obtain ⟨limit, rfl⟩ : ∃ l, limit = l + 1 := ⟨limit - 1, by omega⟩
    have h : skipBlanks ((Source.object fields).text ++ rest) = '\x7b' :: (fields.text ++ '\x7d' :: rest) := by
      rw [Source.skipBlanks_text]
      simp [Source.text]
    simp only [Source.text, List.length_append, List.length_cons, List.length_nil] at hroom
    obtain ⟨tail, hs, hf⟩ := fields.read room limit rest (by omega) (by omega)
    rw [readValue_brace h, hs]
    show (readPairs room limit tail).map _ = _
    rw [hf, ok_map, Source.tree]

/-- The text of items is read as their trees, from the first character on that is not blank. -/
theorem Items.read (items : Items) (room limit : Nat) (rest : List Char) (hroom : 2 * items.text.length + 1 ≤ room)
    (hlimit : items.depth ≤ limit) :
    ∃ c tail, skipBlanks (items.text ++ ']' :: rest) = c :: tail ∧ Span.endsScalar c = false ∧
      readItems room limit (c :: tail) = .ok (items.trees, rest) := by
  obtain ⟨room, rfl⟩ : ∃ r, room = r + 1 := ⟨room - 1, by omega⟩
  match items with
  | .last before value after =>
    obtain ⟨c, tail, hc, hs⟩ := value.exists_head
    simp only [Items.text, List.length_append] at hroom
    have hv := value.read room limit (by omega) hlimit
      (stops_gap_cons after (c := ']') (by decide) rest)
    refine ⟨c, tail ++ (after.text ++ ']' :: rest), ?_, hs, ?_⟩
    · rw [Items.text, List.append_assoc, List.append_assoc, skipBlanks_gap, Source.skipBlanks_text, hc, List.cons_append]
    · rw [← List.cons_append, ← hc, readItems_succ_eq_ok_iff]
      exact ⟨value.tree, _, hv, Or.inl ⟨by rw [skipBlanks_gap, skipBlanks_cons (by decide)], rfl⟩⟩
  | .cons before value after more =>
    obtain ⟨c, tail, hc, hs⟩ := value.exists_head
    simp only [Items.text, List.length_append, List.length_cons] at hroom
    rw [Items.depth] at hlimit
    have hv := value.read room limit (by omega) (by omega)
      (stops_gap_cons after (c := ',') (by decide) (more.text ++ ']' :: rest))
    obtain ⟨d, tail', hd, hds, hm⟩ := more.read room limit rest (by omega) (by omega)
    refine ⟨c, tail ++ (after.text ++ ',' :: (more.text ++ ']' :: rest)), ?_, hs, ?_⟩
    · simp only [Items.text, List.append_assoc]
      rw [skipBlanks_gap, Source.skipBlanks_text, hc, List.cons_append, List.cons_append]
    · rw [← List.cons_append, ← hc, readItems_succ_eq_ok_iff]
      refine ⟨value.tree, _, hv, Or.inr ⟨_, d, tail', more.trees, ?_, hd, ?_, hm, rfl⟩⟩
      · rw [skipBlanks_gap, skipBlanks_cons (by decide)]
      · rintro rfl
        exact absurd hds (by decide)

/-- The text of members is read as their pairs, from the first opening quote on. -/
theorem Fields.read (fields : Fields) (room limit : Nat) (rest : List Char) (hroom : 2 * fields.text.length + 1 ≤ room)
    (hlimit : fields.depth ≤ limit) :
    ∃ tail, skipBlanks (fields.text ++ '\x7d' :: rest) = '"' :: tail ∧
      readPairs room limit tail = .ok (fields.pairs, rest) := by
  obtain ⟨room, rfl⟩ : ∃ r, room = r + 1 := ⟨room - 1, by omega⟩
  match fields with
  | .last part value after =>
    simp only [Fields.text, List.length_append] at hroom
    have hv := value.read room limit (by omega) hlimit
      (stops_gap_cons after (c := '\x7d') (by decide) rest)
    refine ⟨part.name.inside ++ '"' :: (part.colon.text ++ ':' :: (part.after.text ++
      (value.text ++ (after.text ++ '\x7d' :: rest)))), ?_, ?_⟩
    · simp only [Fields.text, skipBlanks_part, List.append_assoc]
    · rw [readPairs_succ_eq_ok_iff]
      refine ⟨_, _, _, value.tree, _, part.name.spells.read _, skipBlanks_colon part _, readValue_part value part hv,
        Or.inl ⟨?_, by rw [String.ofList_toList]; rfl⟩⟩
      rw [skipBlanks_gap, skipBlanks_cons (by decide)]
  | .cons part value after more =>
    simp only [Fields.text, List.length_append, List.length_cons] at hroom
    rw [Fields.depth] at hlimit
    have hv := value.read room limit (by omega) (by omega)
      (stops_gap_cons after (c := ',') (by decide) (more.text ++ '\x7d' :: rest))
    obtain ⟨tail, ht, hm⟩ := more.read room limit rest (by omega) (by omega)
    refine ⟨part.name.inside ++ '"' :: (part.colon.text ++ ':' :: (part.after.text ++
      (value.text ++ (after.text ++ ',' :: (more.text ++ '\x7d' :: rest))))), ?_, ?_⟩
    · simp only [Fields.text, skipBlanks_part, List.append_assoc, List.cons_append]
    · rw [readPairs_succ_eq_ok_iff]
      refine ⟨_, _, _, value.tree, _, part.name.spells.read _, skipBlanks_colon part _, readValue_part value part hv,
        Or.inr ⟨_, tail, more.pairs, ?_, ht, hm, by rw [String.ofList_toList]; rfl⟩⟩
      rw [skipBlanks_gap, skipBlanks_cons (by decide)]

end

/-! ## What is read is the text of a source -/

/-- A text in front of `after` is that of a source for the value, behind blanks. -/
def IsSource (limit : Nat) (s : List Char) (value : Json) (after : List Char) : Prop :=
  ∃ (gap : Gap) (src : Source), s = gap.text ++ (src.text ++ after) ∧ src.tree = value ∧ src.depth ≤ limit

namespace ReadingAux

/-- An atom in front of `after` is the text of a source. -/
theorem isSource_atom {limit : Nat} {s after : List Char} {value : Json} (atom : Atom)
    (hs : skipBlanks s = atom.text ++ after) (hv : atom.value = value) (hl : atom.depth ≤ limit) :
    IsSource limit s value after := by
  obtain ⟨gap, hg⟩ := exists_gap s
  exact ⟨gap, .atom atom, by rw [hg, hs]; rfl, hv, hl⟩

/-- A word that is read is an atom. -/
theorem isSource_word {limit : Nat} {s rest after word : List Char} {c : Char} {v : Json} (atom : Atom) (hatom : atom.text = c :: word)
    (hdepth : atom.depth = 0) (hs : skipBlanks s = c :: rest)
    (h : (readWord word rest).map (fun behind => (atom.value, behind)) = .ok (v, after)) : IsSource limit s v after := by
  obtain ⟨behind, hread, heq⟩ := exists_of_map h
  obtain ⟨hv, rfl⟩ := Prod.mk.inj heq
  refine isSource_atom atom ?_ hv (hdepth ▸ Nat.zero_le limit)
  rw [hs, readWord_eq_ok_iff.mp hread, hatom, List.cons_append]

/-- A text between quotes is a literal. -/
theorem isSource_string {limit : Nat} {s rest after cs : List Char} (hs : skipBlanks s = '"' :: rest)
    (h : readString rest = .ok (cs, after)) : IsSource limit s (.string (String.ofList cs)) after := by
  obtain ⟨gap, hgap⟩ := exists_gap s
  obtain ⟨inside, rfl, hspells⟩ := exists_of_readString _ h
  refine ⟨gap, .string ⟨inside, String.ofList cs, by rwa [String.toList_ofList]⟩, ?_, rfl, Nat.zero_le _⟩
  rw [hgap, hs]
  simp [Source.text, Literal.text]

/-- A number behind a sign is an atom. -/
theorem isSource_minus {limit : Nat} {s t after : List Char} {n : Number} (hs : skipBlanks s = '-' :: t)
    (h : Number.read true t = .ok (n, after)) : IsSource limit s (.number n) after := by
  obtain ⟨spelling, rfl, -, hnum, hrest⟩ := Number.exists_of_read h
  refine isSource_atom (Atom.scalar ('-' :: spelling) (.number n) trivial nofun ?_ ?_) hs rfl (Nat.zero_le _)
  · intro c hc
    rcases List.mem_cons.mp hc with rfl | hc
    · decide
    · exact AtomAux.isScalarChar_of_isNumeric (hnum c hc)
  · intro room limit rest hr
    rw [List.cons_append, readValue_minus (skipBlanks_cons (by decide) _), hrest rest hr, ok_map]

/-- A number without a sign is an atom. -/
theorem isSource_digit {limit : Nat} {s t after : List Char} {c : Char} {n : Number} (hs : skipBlanks s = c :: t)
    (hc : Number.isDigit c = true) (h : Number.read false (c :: t) = .ok (n, after)) :
    IsSource limit s (.number n) after := by
  obtain ⟨spelling, hsp, hne, hnum, hrest⟩ := Number.exists_of_read h
  have hchars : ∀ d ∈ spelling, IsScalarChar d := fun d hd => AtomAux.isScalarChar_of_isNumeric (hnum d hd)
  refine isSource_atom (Atom.scalar spelling (.number n) trivial hne hchars ?_) (hs.trans hsp) rfl (Nat.zero_le _)
  intro room limit rest hr
  rcases spelling with _ | ⟨d, spelling⟩
  · exact absurd rfl hne
  · have hd := (hchars d List.mem_cons_self).1
    simp only [List.cons_append, List.cons.injEq] at hsp
    rw [List.cons_append, readValue_digit (skipBlanks_cons (isBlank_of_endsScalar hd) _) (hsp.1 ▸ hc),
      ← List.cons_append, hrest rest hr, ok_map]

end ReadingAux

/-- What is read as a value, as items or as members in `room` steps is the text of a source. -/
structure ReadsSources (room : Nat) : Prop where
  value : ∀ {limit s v after}, readValue room limit s = .ok (v, after) → IsSource limit s v after
  items : ∀ {limit s trees after}, readItems room limit s = .ok (trees, after) →
    ∃ items : Items, s = items.text ++ ']' :: after ∧ items.trees = trees ∧ items.depth ≤ limit
  pairs : ∀ {limit s pairs after}, readPairs room limit s = .ok (pairs, after) →
    ∃ fields : Fields, '"' :: s = fields.text ++ '\x7d' :: after ∧ fields.pairs = pairs ∧ fields.depth ≤ limit

namespace ReadingAux

section

variable {room limit : Nat} {s rest after : List Char}

/-- A list with nothing inside is an atom. -/
theorem isSource_emptyArray (hs : skipBlanks s = '[' :: rest) (hinside : skipBlanks rest = ']' :: after) :
    IsSource (limit + 1) s (.array []) after := by
  obtain ⟨inner, hinner⟩ := exists_gap rest
  refine isSource_atom (Atom.emptyArray inner) ?_ rfl (Nat.succ_le_succ (Nat.zero_le limit))
  rw [hs, hinner, hinside]
  simp [Atom.emptyArray]

/-- An object with nothing inside is an atom. -/
theorem isSource_emptyObject (hs : skipBlanks s = '\x7b' :: rest) (hinside : skipBlanks rest = '\x7d' :: after) :
    IsSource (limit + 1) s (.object []) after := by
  obtain ⟨inner, hinner⟩ := exists_gap rest
  refine isSource_atom (Atom.emptyObject inner) ?_ rfl (Nat.succ_le_succ (Nat.zero_le limit))
  rw [hs, hinner, hinside]
  simp [Atom.emptyObject]

/-- Items in brackets are the text of a list. -/
theorem isSource_array (ih : ReadsSources room) {trees : List Json} (hs : skipBlanks s = '[' :: rest)
    (h : readItems room limit (skipBlanks rest) = .ok (trees, after)) : IsSource (limit + 1) s (.array trees) after := by
  obtain ⟨gap, hgap⟩ := exists_gap s
  obtain ⟨inner, hinner⟩ := exists_gap rest
  obtain ⟨items, hitems, rfl, hdepth⟩ := ih.items h
  refine ⟨gap, .array (items.behind inner), ?_, by simp [Source.tree], by simp [Source.depth, hdepth]⟩
  rw [hgap, hs, hinner, hitems]
  simp [Source.text]

/-- Members in braces are the text of an object. -/
theorem isSource_object (ih : ReadsSources room) {inside : List Char} {pairs : List (String × Json)}
    (hs : skipBlanks s = '\x7b' :: rest) (hinside : skipBlanks rest = '"' :: inside)
    (h : readPairs room limit inside = .ok (pairs, after)) : IsSource (limit + 1) s (.object (Members.ofPairs pairs)) after := by
  obtain ⟨gap, hgap⟩ := exists_gap s
  obtain ⟨inner, hinner⟩ := exists_gap rest
  obtain ⟨fields, hfields, rfl, hdepth⟩ := ih.pairs h
  refine ⟨gap, .object (fields.behind inner), ?_, by simp [Source.tree], by simp [Source.depth, hdepth]⟩
  rw [hgap, hs, hinner, hinside, hfields]
  simp [Source.text]

end

/-- A value of one more step is the text of a source. -/
theorem isSource_of_readValue {room limit : Nat} (ih : ReadsSources room) {s after : List Char} {v : Json}
    (h : readValue (room + 1) limit s = .ok (v, after)) : IsSource limit s v after := by
  -- the cases are those of the reader: by the first character, and inside a list or an object by the first one there
  rw [readValue] at h
  split at h
  · cases h
  · exact isSource_word Atom.ofNull rfl rfl ‹_› h
  · exact isSource_word Atom.ofTrue rfl rfl ‹_› h
  · exact isSource_word Atom.ofFalse rfl rfl ‹_› h
  · obtain ⟨⟨cs, behind⟩, hread, heq⟩ := exists_of_map h
    cases heq
    exact isSource_string ‹_› hread
  · obtain ⟨⟨n, behind⟩, hread, heq⟩ := exists_of_map h
    cases heq
    exact isSource_minus ‹_› hread
  · rename_i hs
    split at h
    · cases h
    · split at h
      · cases h
      · rename_i hinside
        cases h
        exact isSource_emptyArray hs hinside
      · obtain ⟨⟨trees, behind⟩, hread, heq⟩ := exists_of_map h
        cases heq
        exact isSource_array ih hs hread
  · rename_i hs
    split at h
    · cases h
    · split at h
      · cases h
      · rename_i hinside
        cases h
        exact isSource_emptyObject hs hinside
      · rename_i hinside
        obtain ⟨⟨pairs, behind⟩, hread, heq⟩ := exists_of_map h
        cases heq
        exact isSource_object ih hs hinside hread
      · cases h
  · rename_i hs
    split at h
    · rename_i hdigit
      obtain ⟨⟨n, behind⟩, hread, heq⟩ := exists_of_map h
      cases heq
      exact isSource_digit hs hdigit hread
    · cases h

/-- Items of one more step are the text of items. -/
theorem exists_of_readItems {room limit : Nat} (ih : ReadsSources room) {s after : List Char} {trees : List Json}
    (h : readItems (room + 1) limit s = .ok (trees, after)) :
    ∃ items : Items, s = items.text ++ ']' :: after ∧ items.trees = trees ∧ items.depth ≤ limit := by
  obtain ⟨item, rest, hv, hrest⟩ := readItems_succ_eq_ok_iff.mp h
  obtain ⟨before, src, rfl, rfl, hd⟩ := ih.value hv
  obtain ⟨behind, hb⟩ := exists_gap rest
  rcases hrest with ⟨hs, rfl⟩ | ⟨rest', c, tail, more, hs, ht, -, hm, rfl⟩
  · refine ⟨.last before src behind, ?_, rfl, hd⟩
    rw [hb, hs]
    simp [Items.text]
  · obtain ⟨items, hi, rfl, hdi⟩ := ih.items hm
    obtain ⟨inner, hin⟩ := exists_gap rest'
    refine ⟨.cons before src behind (items.behind inner), ?_, by simp [Items.trees], Nat.max_le.mpr ⟨hd, by rwa [Items.depth_behind]⟩⟩
    rw [hb, hs, hin, ht, hi]
    simp [Items.text]

/-- Members of one more step are the text of members. -/
theorem exists_of_readPairs {room limit : Nat} (ih : ReadsSources room) {s after : List Char}
    {pairs : List (String × Json)} (h : readPairs (room + 1) limit s = .ok (pairs, after)) :
    ∃ fields : Fields, '"' :: s = fields.text ++ '\x7d' :: after ∧ fields.pairs = pairs ∧ fields.depth ≤ limit := by
  obtain ⟨key, rest, rest', value, rest'', hk, hcolon, hv, hrest⟩ := readPairs_succ_eq_ok_iff.mp h
  obtain ⟨inside, rfl, hsp⟩ := exists_of_readString _ hk
  obtain ⟨colon, hc⟩ := exists_gap rest
  obtain ⟨before, src, rfl, rfl, hd⟩ := ih.value hv
  obtain ⟨behind, hb⟩ := exists_gap rest''
  let part : KeyPart :=
    ⟨⟨[], nofun⟩, ⟨inside, String.ofList key, by rwa [String.toList_ofList]⟩, colon, before⟩
  rcases hrest with ⟨hs, rfl⟩ | ⟨comma, tail, more, hs, ht, hm, rfl⟩
  · refine ⟨.last part src behind, ?_, rfl, hd⟩
    rw [hc, hcolon, hb, hs]
    simp [Fields.text, KeyPart.text, Literal.text, part]
  · obtain ⟨fields, hf, rfl, hdf⟩ := ih.pairs hm
    obtain ⟨inner, hin⟩ := exists_gap comma
    refine ⟨.cons part src behind (fields.behind inner), ?_, ?_, Nat.max_le.mpr ⟨hd, by rwa [Fields.depth_behind]⟩⟩
    · rw [hc, hcolon, hb, hs, hin, ht, hf]
      simp [Fields.text, KeyPart.text, Literal.text, part]
    · simp [Fields.pairs, KeyPart.key, part]

end ReadingAux

/-- Whatever is read is the text of a source. -/
theorem readsSources (room : Nat) : ReadsSources room := by
  induction room with
  | zero => exact ⟨fun h => by simp [readValue] at h, fun h => by simp [readItems] at h, fun h => by simp [readPairs] at h⟩
  | succ room ih => exact ⟨isSource_of_readValue ih, exists_of_readItems ih, exists_of_readPairs ih⟩

/-! ## Whole texts -/

/-- A text that is read spells a source between blanks, and the source spells the tree. -/
theorem exists_source_of_parse {text : List Char} {tree : Json} (h : parse text = .ok tree) :
    ∃ (before : Gap) (src : Source) (after : Gap),
      text = before.text ++ src.text ++ after.text ∧ src.tree = tree ∧ src.depth ≤ nestingLimit := by
  obtain ⟨⟨value, rest⟩, hv, hrest⟩ := exists_of_bind h
  obtain ⟨before, src, rfl, rfl, hd⟩ := (readsSources _).value hv
  obtain ⟨after, ha⟩ := exists_gap rest
  dsimp only at hrest
  split at hrest
  · rename_i hs
    cases hrest
    refine ⟨before, src, after, ?_, rfl, hd⟩
    rw [ha, hs]
    simp
  · cases hrest

/-- A source between blanks is read as its tree. -/
theorem parse_source (before : Gap) (src : Source) (after : Gap) (hd : src.depth ≤ nestingLimit) :
    parse (before.text ++ src.text ++ after.text) = .ok src.tree := by
  have hv : readValue (2 * (before.text ++ src.text ++ after.text).length + 1) nestingLimit
      (before.text ++ src.text ++ after.text) = .ok (src.tree, after.text) := by
    rw [List.append_assoc, readValue_gap]
    refine src.read _ _ ?_ hd ?_
    · simp only [List.length_append]
      omega
    · have := stops_gap stops_nil after
      rwa [List.append_nil] at this
  have hs : skipBlanks after.text = [] := by
    have := skipBlanks_gap after []
    rwa [List.append_nil] at this
  rw [parse, hv, ok_bind]
  dsimp only
  rw [hs]
  rfl

mutual

/-- Sources spell trees whose objects have each key once. -/
theorem Source.hasDistinctKeys (src : Source) : src.tree.HasDistinctKeys := by
  match src with
  | .atom atom =>
    have ha := atom.atomic
    rw [Source.tree]
    cases hv : atom.value with
    | object members =>
      rcases members with _ | ⟨m, ms⟩
      · exact ⟨List.nodup_nil, trivial⟩
      · rw [hv] at ha
        exact ha.elim
    | _ => trivial
  | .string _ => trivial
  | .array _ => trivial
  | .object fields =>
    refine ⟨nodup_keys_ofPairs _, (membersHaveDistinctKeys_iff _).mpr fun member hm => ?_⟩
    exact fields.hasDistinctKeys member (mem_of_mem_ofPairs hm)

theorem Fields.hasDistinctKeys (fields : Fields) : ∀ member ∈ fields.pairs, member.2.HasDistinctKeys := by
  match fields with
  | .last part value after =>
    intro member hm
    rw [List.mem_singleton.mp hm]
    exact value.hasDistinctKeys
  | .cons part value after rest =>
    intro member hm
    rcases List.mem_cons.mp hm with rfl | hm
    · exact value.hasDistinctKeys
    · exact rest.hasDistinctKeys member hm

end

end SealedConfig.Json
