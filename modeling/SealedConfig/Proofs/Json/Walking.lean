import SealedConfig.Proofs.Json.Atom

/-!
# The walk over a source

The walk goes through the text of a source from its first to its last character. `Source.marks` says what it records on the way:
every literal at a path of keys with the bytes that it covers, those of keys that occur again included.
-/

namespace SealedConfig.Json

open Json.Span

/-! ## What the walk records -/

/-- A literal is recorded at its path; inside a list there is none. -/
def Literal.marks (literal : Literal) (path : Option KeyPath) (offset : Nat) : Found :=
  match path with
  | some path => [(path, ⟨offset, offset + utf8Length literal.text⟩)]
  | none => []

mutual

/-- The literals that a walk records in a value which begins at a byte, later ones first. -/
def Source.marks (path : Option KeyPath) (offset : Nat) : Source → Found
  | .atom _ => []
  | .string literal => literal.marks path offset
  | .array _ => []
  | .object fields => fields.marks path (offset + 1)

/-- The literals that a walk records in members which begin at a byte, later ones first. -/
def Fields.marks (path : Option KeyPath) (offset : Nat) : Fields → Found
  | .last part value _ => value.marks (path.map (· ++ [part.key])) (offset + utf8Length part.text)
  | .cons part value after rest =>
    rest.marks path (offset + utf8Length part.text + utf8Length value.text + utf8Length after.text + 1) ++
      value.marks (path.map (· ++ [part.key])) (offset + utf8Length part.text)

end

mutual

/-- Nothing is recorded inside a list. -/
theorem Source.marks_none (src : Source) (offset : Nat) : src.marks none offset = [] := by
  match src with
  | .atom _ | .string _ | .array _ => rfl
  | .object fields => exact fields.marks_none _

theorem Fields.marks_none (fields : Fields) (offset : Nat) : fields.marks none offset = [] := by
  match fields with
  | .last _ value _ => exact value.marks_none _
  | .cons _ value _ rest => rw [Fields.marks, rest.marks_none, Option.map_none, value.marks_none]; rfl

end

/-! ## One step of the walk -/

namespace WalkingAux

/-- A literal is walked to its closing quote. -/
theorem readLiteral_text (literal : Literal) (offset : Nat) (rest : List Char) :
    readLiteral ⟨offset, '"' :: (literal.inside ++ '"' :: rest)⟩ (literal.inside ++ '"' :: rest) =
      .ok (literal.text, ⟨offset + utf8Length literal.text, rest⟩) := by
  rw [readLiteral, literal.spells.walk]
  rfl

/-- Behind a gap a cursor stands at a character that is not blank. -/
theorem skipBlanks_gap_cons (offset : Nat) (gap : Gap) {c : Char} (h : isBlank c = false) (rest : List Char) :
    Cursor.skipBlanks ⟨offset, gap.text ++ c :: rest⟩ = ⟨offset + utf8Length gap.text, c :: rest⟩ :=
  skipBlanks_cursor offset gap (skipBlanks_cons h rest)

/-- Behind a gap a cursor stands at a value. -/
theorem skipBlanks_gap_source (offset : Nat) (gap : Gap) (src : Source) (rest : List Char) :
    Cursor.skipBlanks ⟨offset, gap.text ++ (src.text ++ rest)⟩ = ⟨offset + utf8Length gap.text, src.text ++ rest⟩ :=
  skipBlanks_cursor offset gap (src.skipBlanks_text rest)

/-- A cursor stands behind blanks only once. -/
theorem skipBlanks_skipBlanks_cursor (cursor : Cursor) : cursor.skipBlanks.skipBlanks = cursor.skipBlanks :=
  skipBlanks_cursor_self _ (Json.skipBlanks_skipBlanks cursor.rest)

/-- Blanks in front of a value do not count. -/
theorem walkValue_skipBlanks (room : Nat) (path : Option KeyPath) (cursor : Cursor) (found : Found) :
    walkValue (room + 1) path cursor.skipBlanks found = walkValue (room + 1) path cursor found := by
  rw [walkValue, walkValue, skipBlanks_skipBlanks_cursor]

/-- Blanks in front of members do not count. -/
theorem walkMembers_skipBlanks (room : Nat) (path : Option KeyPath) (cursor : Cursor) (found : Found) :
    walkMembers (room + 1) path cursor.skipBlanks found = walkMembers (room + 1) path cursor found := by
  rw [walkMembers, walkMembers, skipBlanks_skipBlanks_cursor]

/-- Blanks in front of items do not count. -/
theorem walkItems_skipBlanks (room : Nat) (cursor : Cursor) (found : Found) :
    walkItems (room + 2) cursor.skipBlanks found = walkItems (room + 2) cursor found := by
  rw [walkItems, walkItems, walkValue_skipBlanks]

/-- Behind an opening bracket with something inside stand items. -/
theorem walkValue_items {room offset : Nat} {path : Option KeyPath} {rest : List Char} {found : Found} {c : Char}
    {tail : List Char} (h : Json.skipBlanks rest = c :: tail) (hc : c ≠ ']') :
    walkValue (room + 3) path ⟨offset, '[' :: rest⟩ found = walkItems (room + 2) ⟨offset + 1, rest⟩ found := by
  have hs : (Cursor.skipBlanks ⟨offset + 1, rest⟩).rest = c :: tail := h
  rw [walkValue_bracket (skipBlanks_cursor_self offset (skipBlanks_cons (by decide) _)), hs]
  split
  · rename_i heq; cases heq; exact absurd rfl hc
  · exact walkItems_skipBlanks room _ found

/-- Behind an opening brace with a key inside stand members. -/
theorem walkValue_members {room offset : Nat} {path : Option KeyPath} {rest : List Char} {found : Found}
    {tail : List Char} (h : Json.skipBlanks rest = '"' :: tail) :
    walkValue (room + 2) path ⟨offset, '\x7b' :: rest⟩ found = walkMembers (room + 1) path ⟨offset + 1, rest⟩ found := by
  have hs : (Cursor.skipBlanks ⟨offset + 1, rest⟩).rest = '"' :: tail := h
  rw [walkValue_brace (skipBlanks_cursor_self offset (skipBlanks_cons (by decide) _)), hs]
  exact walkMembers_skipBlanks room path _ found

/-- The first of items is walked as a value inside a list. -/
theorem walkItems_value {room offset offset' : Nat} {before after : Gap} {src : Source} {rest : List Char} {c : Char}
    {found found' : Found} (hc : isBlank c = false)
    (h : walkValue (room + 1) none ⟨offset + utf8Length before.text, src.text ++ (after.text ++ c :: rest)⟩ found =
      .ok (⟨offset', after.text ++ c :: rest⟩, found')) :
    ∃ behind, walkValue (room + 1) none ⟨offset, before.text ++ (src.text ++ (after.text ++ c :: rest))⟩ found =
      .ok (behind, found') ∧ behind.skipBlanks = ⟨offset' + utf8Length after.text, c :: rest⟩ :=
  ⟨_, by rw [← walkValue_skipBlanks, skipBlanks_gap_source, h], skipBlanks_gap_cons offset' after hc rest⟩

/-- Items go on behind a comma. -/
theorem walkItems_comma {room offset offset' : Nat} {before after : Gap} {src : Source} {rest : List Char}
    {found found' : Found}
    (h : walkValue (room + 1) none ⟨offset + utf8Length before.text, src.text ++ (after.text ++ ',' :: rest)⟩ found =
      .ok (⟨offset', after.text ++ ',' :: rest⟩, found')) :
    walkItems (room + 2) ⟨offset, before.text ++ (src.text ++ (after.text ++ ',' :: rest))⟩ found =
      walkItems (room + 1) ⟨offset' + utf8Length after.text + 1, rest⟩ found' := by
  obtain ⟨behind, hv, hs⟩ := walkItems_value (by decide) h
  rw [walkItems, hv]
  dsimp only
  rw [hs]
  rfl

/-- Items end behind a bracket. -/
theorem walkItems_close {room offset offset' : Nat} {before after : Gap} {src : Source} {rest : List Char}
    {found found' : Found}
    (h : walkValue (room + 1) none ⟨offset + utf8Length before.text, src.text ++ (after.text ++ ']' :: rest)⟩ found =
      .ok (⟨offset', after.text ++ ']' :: rest⟩, found')) :
    walkItems (room + 2) ⟨offset, before.text ++ (src.text ++ (after.text ++ ']' :: rest))⟩ found =
      .ok (⟨offset' + utf8Length after.text + 1, rest⟩, found') := by
  obtain ⟨behind, hv, hs⟩ := walkItems_value (by decide) h
  rw [walkItems, hv]
  dsimp only
  rw [hs]
  rfl

/-- The first of members is walked as a key, a colon and a value at the path of that key. -/
theorem walkMembers_part (room offset : Nat) (path : Option KeyPath) (part : KeyPart) (src : Source) (rest : List Char)
    (found : Found) :
    walkMembers (room + 2) path ⟨offset, part.text ++ (src.text ++ rest)⟩ found =
      match walkValue (room + 1) (path.map (· ++ [part.key])) ⟨offset + utf8Length part.text, src.text ++ rest⟩ found with
      | .error stop => .error stop
      | .ok (behind, found) =>
        let next := behind.skipBlanks
        match next.rest with
        | ',' :: rest => walkMembers (room + 1) path (next.past [','] rest) found
        | '\x7d' :: rest => .ok (next.past ['\x7d'] rest, found)
        | _ => .error ⟨next.offset, .expectedObjectEnd⟩ := by
  generalize htail : src.text ++ rest = tail
  have hname : Cursor.skipBlanks ⟨offset, part.text ++ tail⟩ = ⟨offset + utf8Length part.before.text,
      '"' :: (part.name.inside ++ '"' :: (part.colon.text ++ ':' :: (part.after.text ++ tail)))⟩ := by
    simp only [KeyPart.text, Literal.text, List.append_assoc, List.cons_append, List.nil_append]
    exact skipBlanks_gap_cons offset part.before (by decide) _
  have hvalue : Cursor.skipBlanks (Cursor.past ⟨offset + utf8Length part.before.text + utf8Length part.name.text +
      utf8Length part.colon.text, ':' :: (part.after.text ++ tail)⟩ [':'] (part.after.text ++ tail)) =
      ⟨offset + utf8Length part.text, tail⟩ := by
    rw [← htail, Cursor.past, skipBlanks_gap_source]
    simp [KeyPart.text, Nat.add_assoc]
  rw [← hvalue, walkValue_skipBlanks, walkMembers, hname]
  simp only [readLiteral_text]
  rw [Literal.literalValue?_text]
  dsimp only
  rw [skipBlanks_gap_cons _ _ (by decide)]
  exact rfl

/-- Members go on behind a comma. -/
theorem walkMembers_comma {room offset offset' : Nat} {path : Option KeyPath} {part : KeyPart} {after : Gap} {src : Source}
    {rest : List Char} {found found' : Found}
    (h : walkValue (room + 1) (path.map (· ++ [part.key]))
        ⟨offset + utf8Length part.text, src.text ++ (after.text ++ ',' :: rest)⟩ found =
      .ok (⟨offset', after.text ++ ',' :: rest⟩, found')) :
    walkMembers (room + 2) path ⟨offset, part.text ++ (src.text ++ (after.text ++ ',' :: rest))⟩ found =
      walkMembers (room + 1) path ⟨offset' + utf8Length after.text + 1, rest⟩ found' := by
  rw [walkMembers_part, h]
  dsimp only
  rw [skipBlanks_gap_cons _ _ (by decide)]
  exact rfl

/-- Members end behind a brace. -/
theorem walkMembers_close {room offset offset' : Nat} {path : Option KeyPath} {part : KeyPart} {after : Gap} {src : Source}
    {rest : List Char} {found found' : Found}
    (h : walkValue (room + 1) (path.map (· ++ [part.key]))
        ⟨offset + utf8Length part.text, src.text ++ (after.text ++ '\x7d' :: rest)⟩ found =
      .ok (⟨offset', after.text ++ '\x7d' :: rest⟩, found')) :
    walkMembers (room + 2) path ⟨offset, part.text ++ (src.text ++ (after.text ++ '\x7d' :: rest))⟩ found =
      .ok (⟨offset' + utf8Length after.text + 1, rest⟩, found') := by
  rw [walkMembers_part, h]
  dsimp only
  rw [skipBlanks_gap_cons _ _ (by decide)]
  exact rfl

end WalkingAux

open WalkingAux

/-! ## The walk from one end to the other -/

mutual

/-- The walk over a source ends behind its text and records its marks. -/
theorem Source.walk (src : Source) (room : Nat) (path : Option KeyPath) (offset : Nat) {rest : List Char} (found : Found)
    (hroom : 2 * src.text.length ≤ room) (hr : Stops rest) :
    walkValue room path ⟨offset, src.text ++ rest⟩ found =
      .ok (⟨offset + utf8Length src.text, rest⟩, src.marks path offset ++ found) := by
  match src with
  | .atom atom =>
    obtain ⟨c, tail, hc, -⟩ := atom.starts
    obtain ⟨room, rfl⟩ : ∃ r, room = r + 1 := ⟨room - 1, by rw [Source.text, hc, List.length_cons] at hroom; omega⟩
    exact atom.walk room path offset rest found hr
  | .string literal =>
    have htext : (Source.string literal).text ++ rest = '"' :: (literal.inside ++ '"' :: rest) := by
      simp [Source.text, Literal.text]
    simp only [Source.text, Literal.text, List.length_append, List.length_cons] at hroom
    obtain ⟨room, rfl⟩ : ∃ r, room = r + 1 := ⟨room - 1, by omega⟩
    rw [htext, walkValue_quote (skipBlanks_cursor_self offset (skipBlanks_cons (by decide) _)), readLiteral_text]
    cases path <;> rfl
  | .array items =>
    have htext : (Source.array items).text ++ rest = '[' :: (items.text ++ ']' :: rest) := by simp [Source.text]
    obtain ⟨c, tail, hs, hc⟩ := items.exists_skipBlanks (']' :: rest)
    simp only [Source.text, List.length_append, List.length_cons, List.length_nil] at hroom
    obtain ⟨room, rfl⟩ : ∃ r, room = r + 3 := ⟨room - 3, by omega⟩
    rw [htext, walkValue_items hs (by rintro rfl; exact absurd hc (by decide)), items.walk _ found (by omega)]
    simp [Source.text, Source.marks, Char.utf8Size, Nat.add_assoc, Nat.add_left_comm, Nat.add_comm]
  | .object fields =>
    have htext : (Source.object fields).text ++ rest = '\x7b' :: (fields.text ++ '\x7d' :: rest) := by
      simp [Source.text]
    obtain ⟨tail, hs⟩ := fields.exists_skipBlanks ('\x7d' :: rest)
    simp only [Source.text, List.length_append, List.length_cons, List.length_nil] at hroom
    obtain ⟨room, rfl⟩ : ∃ r, room = r + 2 := ⟨room - 2, by omega⟩
    rw [htext, walkValue_members hs, fields.walk path _ found (by omega)]
    simp [Source.text, Source.marks, Char.utf8Size, Nat.add_assoc, Nat.add_left_comm, Nat.add_comm]

/-- The walk over items ends behind the bracket that closes them and records nothing. -/
theorem Items.walk (items : Items) {room : Nat} (offset : Nat) {rest : List Char} (found : Found)
    (hroom : 2 * items.text.length + 1 ≤ room) :
    walkItems room ⟨offset, items.text ++ ']' :: rest⟩ found =
      .ok (⟨offset + utf8Length items.text + 1, rest⟩, found) := by
  match items with
  | .last before value after =>
    obtain ⟨c, tail, hc, -⟩ := value.exists_head
    simp only [Items.text, List.length_append] at hroom
    obtain ⟨room, rfl⟩ : ∃ r, room = r + 2 := ⟨room - 2, by rw [hc, List.length_cons] at hroom; omega⟩
    have hv := value.walk (room + 1) none (offset + utf8Length before.text) found (by omega)
      (stops_gap (stops_cons (c := ']') (by decide) rest) after)
    simp only [Items.text, List.append_assoc]
    rw [walkItems_close hv, value.marks_none]
    simp [Nat.add_assoc]
  | .cons before value after more =>
    simp only [Items.text, List.length_append, List.length_cons] at hroom
    obtain ⟨room, rfl⟩ : ∃ r, room = r + 2 := ⟨room - 2, by omega⟩
    have hv := value.walk (room + 1) none (offset + utf8Length before.text) found (by omega)
      (stops_gap (stops_cons (c := ',') (by decide) (more.text ++ ']' :: rest)) after)
    simp only [Items.text, List.append_assoc, List.cons_append]
    rw [walkItems_comma hv, value.marks_none, List.nil_append, more.walk _ found (by omega)]
    simp [Char.utf8Size, Nat.add_assoc]

/-- The walk over members ends behind the brace that closes them and records their marks. -/
theorem Fields.walk (fields : Fields) {room : Nat} (path : Option KeyPath) (offset : Nat) {rest : List Char}
    (found : Found) (hroom : 2 * fields.text.length + 1 ≤ room) :
    walkMembers room path ⟨offset, fields.text ++ '\x7d' :: rest⟩ found =
      .ok (⟨offset + utf8Length fields.text + 1, rest⟩, fields.marks path offset ++ found) := by
  match fields with
  | .last part value after =>
    obtain ⟨c, tail, hc, -⟩ := value.exists_head
    simp only [Fields.text, List.length_append] at hroom
    obtain ⟨room, rfl⟩ : ∃ r, room = r + 2 := ⟨room - 2, by rw [hc, List.length_cons] at hroom; omega⟩
    have hv := value.walk (room + 1) (path.map (· ++ [part.key])) (offset + utf8Length part.text) found (by omega)
      (stops_gap (stops_cons (c := '\x7d') (by decide) rest) after)
    simp only [Fields.text, List.append_assoc]
    rw [walkMembers_close hv, Fields.marks]
    simp [Nat.add_assoc]
  | .cons part value after more =>
    simp only [Fields.text, List.length_append, List.length_cons] at hroom
    obtain ⟨room, rfl⟩ : ∃ r, room = r + 2 := ⟨room - 2, by omega⟩
    have hv := value.walk (room + 1) (path.map (· ++ [part.key])) (offset + utf8Length part.text) found (by omega)
      (stops_gap (stops_cons (c := ',') (by decide) (more.text ++ '\x7d' :: rest)) after)
    simp only [Fields.text, List.append_assoc, List.cons_append]
    rw [walkMembers_comma hv, Fields.marks, more.walk path _ _ (by omega)]
    simp [Char.utf8Size, Nat.add_assoc]

end

/-- The walk over a whole text records the marks of the source that it spells. -/
theorem walk_source (start : Nat) (before : Gap) (src : Source) (after : Gap) :
    Span.walk start (before.text ++ src.text ++ after.text) = .ok (src.marks (some []) (start + utf8Length before.text)) := by
  have hstops : Stops after.text := by
    have := stops_gap stops_nil after
    rwa [List.append_nil] at this
  have hend : ∀ offset, (Cursor.skipBlanks ⟨offset, after.text⟩).rest = [] := fun offset => by
    have := skipBlanks_gap after []
    rwa [List.append_nil] at this
  rw [Span.walk, ← walkValue_skipBlanks, List.append_assoc, skipBlanks_gap_source,
    src.walk _ _ _ _ (by simp only [List.length_append]; omega) hstops]
  dsimp only
  rw [if_pos (hend _), List.append_nil]

end SealedConfig.Json
