import SealedConfig.Proofs.Json.Source

/-!
# Atoms

The values that both readers take as a whole: words, numbers, and lists and objects with nothing inside. The walk over literals
goes past all of them without recording anything.
-/

namespace SealedConfig.Json

open Json.Span Outcome

/-- A character inside a word or number: it ends no scalar and begins no other value. -/
def IsScalarChar (c : Char) : Prop := endsScalar c = false ∧ c ≠ '\x7b' ∧ c ≠ '[' ∧ c ≠ '"'

instance (c : Char) : Decidable (IsScalarChar c) := inferInstanceAs (Decidable (_ ∧ _))

namespace AtomAux

/-- The characters of numbers are characters of scalars. -/
theorem isScalarChar_of_isNumeric {c : Char} (h : Number.isNumeric c = true) : IsScalarChar c := by
  refine ⟨Number.NumberAux.endsScalar_of_isNumeric h, ?_, ?_, ?_⟩ <;> rintro rfl <;> exact absurd h (by decide)

/-- A text of which every character passes the check is a scalar. -/
theorem isScalarChar_of_all {text : List Char} (h : text.all (IsScalarChar ·) = true) : ∀ c ∈ text, IsScalarChar c :=
  fun c hc => of_decide_eq_true (List.all_eq_true.mp h c hc)

/-- Nothing blank comes before a value. -/
theorem skipBlanks_eq_self {c : Char} (h : endsScalar c = false) (rest : List Char) :
    skipBlanks (c :: rest) = c :: rest :=
  skipBlanks_cons (isBlank_of_endsScalar h) rest

end AtomAux

open AtomAux

/-- Behind a gap a cursor stands where the blanks end. -/
theorem skipBlanks_cursor (offset : Nat) (gap : Gap) {s : List Char} (h : skipBlanks s = s) :
    Cursor.skipBlanks ⟨offset, gap.text ++ s⟩ = ⟨offset + utf8Length gap.text, s⟩ := by
  have ht : s.takeWhile isBlank = [] := by
    rcases s with _ | ⟨c, s⟩
    · rfl
    · have hc := List.head?_dropWhile_not isBlank (c :: s)
      rw [show (c :: s).dropWhile isBlank = c :: s from h] at hc
      simp only [List.head?_cons] at hc
      simp [hc]
  simp [Cursor.skipBlanks, Cursor.past, List.takeWhile_append_of_pos gap.blank, ht, h]

/-- Without blanks in front a cursor stays where it is. -/
theorem skipBlanks_cursor_self (offset : Nat) {s : List Char} (h : skipBlanks s = s) :
    Cursor.skipBlanks ⟨offset, s⟩ = ⟨offset, s⟩ :=
  skipBlanks_cursor offset ⟨[], nofun⟩ h

/-! ## The walk by the first character -/

section

variable {room offset : Nat} {path : Option KeyPath} {cursor : Cursor} {rest : List Char} {found : Found}

attribute [local simp] walkValue

theorem walkValue_quote (h : cursor.skipBlanks = ⟨offset, '"' :: rest⟩) :
    walkValue (room + 1) path cursor found =
      match readLiteral ⟨offset, '"' :: rest⟩ rest with
      | .error stop => .error stop
      | .ok (_, after) =>
        match path with
        | some path => .ok (after, (path, ⟨offset, after.offset⟩) :: found)
        | none => .ok (after, found) := by
  rw [walkValue, h]
  rfl

theorem walkValue_bracket (h : cursor.skipBlanks = ⟨offset, '[' :: rest⟩) :
    walkValue (room + 1) path cursor found =
      match (Cursor.skipBlanks ⟨offset + 1, rest⟩).rest with
      | ']' :: after => .ok ((Cursor.skipBlanks ⟨offset + 1, rest⟩).past [']'] after, found)
      | _ => walkItems room (Cursor.skipBlanks ⟨offset + 1, rest⟩) found := by
  rw [walkValue, h]
  rfl

theorem walkValue_brace (h : cursor.skipBlanks = ⟨offset, '\x7b' :: rest⟩) :
    walkValue (room + 1) path cursor found =
      match (Cursor.skipBlanks ⟨offset + 1, rest⟩).rest with
      | '\x7d' :: after => .ok ((Cursor.skipBlanks ⟨offset + 1, rest⟩).past ['\x7d'] after, found)
      | _ => walkMembers room path (Cursor.skipBlanks ⟨offset + 1, rest⟩) found := by
  rw [walkValue, h]
  rfl

end

/-- The walk goes past a scalar. -/
theorem walkValue_scalar {text : List Char} (hne : text ≠ []) (hs : ∀ c ∈ text, IsScalarChar c) (room : Nat)
    (path : Option KeyPath) (offset : Nat) {rest : List Char} (hr : Stops rest) (found : Found) :
    walkValue (room + 1) path ⟨offset, text ++ rest⟩ found = .ok (⟨offset + utf8Length text, rest⟩, found) := by
  rcases text with _ | ⟨c, cs⟩
  · exact absurd rfl hne
  obtain ⟨he, h1, h2, h3⟩ := hs c List.mem_cons_self
  have hall : ∀ d ∈ c :: cs, (!endsScalar d) = true := fun d hd => by rw [(hs d hd).1]; rfl
  have hnil : rest.takeWhile (fun d => !endsScalar d) = [] ∧ rest.dropWhile (fun d => !endsScalar d) = rest := by
    rcases rest with _ | ⟨d, rest⟩
    · exact ⟨rfl, rfl⟩
    · simp [hr d rfl]
  rw [walkValue, List.cons_append, skipBlanks_cursor_self offset (skipBlanks_eq_self he _)]
  dsimp only
  split
  · rename_i h; cases h
  · rename_i h; cases h; exact absurd rfl h1
  · rename_i h; cases h; exact absurd rfl h2
  · rename_i h; cases h; exact absurd rfl h3
  · rename_i h
    cases h
    rw [if_neg (by rw [he]; decide), ← List.cons_append, List.takeWhile_append_of_pos hall,
      List.dropWhile_append_of_pos hall, hnil.1, hnil.2, List.append_nil]
    rfl

/-! ## The reader by the first character -/

section

variable {room limit : Nat} {s rest : List Char}

attribute [local simp] readValue

theorem readValue_n (h : skipBlanks s = 'n' :: rest) :
    readValue (room + 1) limit s = (readWord "ull".toList rest).map fun after => (.null, after) := by
  simp [h]

theorem readValue_t (h : skipBlanks s = 't' :: rest) :
    readValue (room + 1) limit s = (readWord "rue".toList rest).map fun after => (.bool true, after) := by
  simp [h]

theorem readValue_f (h : skipBlanks s = 'f' :: rest) :
    readValue (room + 1) limit s = (readWord "alse".toList rest).map fun after => (.bool false, after) := by
  simp [h]

theorem readValue_quote (h : skipBlanks s = '"' :: rest) :
    readValue (room + 1) limit s = (readString rest).map fun (cs, after) => (.string (String.ofList cs), after) := by
  simp [h]

theorem readValue_minus (h : skipBlanks s = '-' :: rest) :
    readValue (room + 1) limit s = (Number.read true rest).map fun (n, after) => (.number n, after) := by
  simp [h]

theorem readValue_bracket (h : skipBlanks s = '[' :: rest) :
    readValue (room + 1) (limit + 1) s =
      match skipBlanks rest with
      | [] => .error (Fault.here .eofList [])
      | ']' :: after => .ok (.array [], after)
      | rest => (readItems room limit rest).map fun (items, after) => (.array items, after) := by
  rw [readValue, h]
  rfl

theorem readValue_brace (h : skipBlanks s = '\x7b' :: rest) :
    readValue (room + 1) (limit + 1) s =
      match skipBlanks rest with
      | [] => .error (Fault.here .eofObject [])
      | '\x7d' :: after => .ok (.object [], after)
      | '"' :: rest =>
        (readPairs room limit rest).map fun (pairs, after) => (.object (Members.ofPairs pairs), after)
      | rest => .error (Fault.here .keyNotString rest) := by
  rw [readValue, h]
  rfl

/-- A digit begins a number. -/
theorem readValue_digit {c : Char} (h : skipBlanks s = c :: rest) (hc : Number.isDigit c = true) :
    readValue (room + 1) limit s = (Number.read false (c :: rest)).map fun (n, after) => (.number n, after) := by
  have hne : ∀ d, Number.isDigit d = false → c ≠ d := by
    rintro d hd rfl
    rw [hc] at hd
    cases hd
  rw [readValue, h]
  split
  all_goals rename_i heq; cases heq
  all_goals first | exact absurd rfl (hne _ (by decide)) | rw [if_pos hc]

end

/-- A word is read exactly from its letters. -/
theorem readWord_eq_ok_iff {letters s after : List Char} : readWord letters s = .ok after ↔ s = letters ++ after := by
  induction letters generalizing s with
  | nil => simp [readWord]
  | cons letter letters ih =>
    rcases s with _ | ⟨c, s⟩
    · simp [readWord]
    · by_cases hc : c = letter
      · simp [readWord, hc, ih]
      · simp [readWord, hc]

namespace Atom

/-- The atom of a word or number. -/
def scalar (text : List Char) (value : Json) (atomic : value.IsAtomic) (ne_nil : text ≠ [])
    (chars : ∀ c ∈ text, IsScalarChar c)
    (read : ∀ room limit rest, Stops rest → readValue (room + 1) limit (text ++ rest) = .ok (value, rest)) : Atom where
  text := text
  value := value
  depth := 0
  atomic := atomic
  starts := by
    rcases text with _ | ⟨c, cs⟩
    · exact absurd rfl ne_nil
    · exact ⟨c, cs, rfl, (chars c List.mem_cons_self).1⟩
  read room limit rest _ hr := read room limit rest hr
  walk room path offset rest found hr := walkValue_scalar ne_nil chars room path offset hr found

/-- The word for nothing. -/
def ofNull : Atom :=
  scalar "null".toList .null trivial nofun (isScalarChar_of_all (by decide)) fun room limit rest _ => by
    have h : skipBlanks ("null".toList ++ rest) = 'n' :: ("ull".toList ++ rest) := skipBlanks_eq_self (by decide) _
    rw [readValue_n h, readWord_eq_ok_iff.mpr rfl, ok_map]

/-- The word for yes. -/
def ofTrue : Atom :=
  scalar "true".toList (.bool true) trivial nofun (isScalarChar_of_all (by decide)) fun room limit rest _ => by
    have h : skipBlanks ("true".toList ++ rest) = 't' :: ("rue".toList ++ rest) := skipBlanks_eq_self (by decide) _
    rw [readValue_t h, readWord_eq_ok_iff.mpr rfl, ok_map]

/-- The word for no. -/
def ofFalse : Atom :=
  scalar "false".toList (.bool false) trivial nofun (isScalarChar_of_all (by decide)) fun room limit rest _ => by
    have h : skipBlanks ("false".toList ++ rest) = 'f' :: ("alse".toList ++ rest) := skipBlanks_eq_self (by decide) _
    rw [readValue_f h, readWord_eq_ok_iff.mpr rfl, ok_map]

/-- A list with nothing inside. -/
def emptyArray (gap : Gap) : Atom where
  text := '[' :: gap.text ++ [']']
  value := .array []
  depth := 1
  atomic := trivial
  starts := ⟨'[', gap.text ++ [']'], rfl, by decide⟩
  read room limit rest hl hr := by
    obtain ⟨limit, rfl⟩ : ∃ l, limit = l + 1 := ⟨limit - 1, by omega⟩
    rw [List.append_assoc, List.cons_append, readValue_bracket (skipBlanks_eq_self (by decide) _), skipBlanks_gap,
      List.singleton_append, skipBlanks_cons (by decide)]
    rfl
  walk room path offset rest found hr := by
    rw [List.append_assoc, List.cons_append,
      walkValue_bracket (skipBlanks_cursor_self offset (skipBlanks_eq_self (by decide) _)),
      List.singleton_append, skipBlanks_cursor _ gap (skipBlanks_cons (by decide) _)]
    simp [Cursor.past, Nat.add_assoc, Char.utf8Size]

/-- An object with nothing inside. -/
def emptyObject (gap : Gap) : Atom where
  text := '\x7b' :: gap.text ++ ['\x7d']
  value := .object []
  depth := 1
  atomic := trivial
  starts := ⟨'\x7b', gap.text ++ ['\x7d'], rfl, by decide⟩
  read room limit rest hl hr := by
    obtain ⟨limit, rfl⟩ : ∃ l, limit = l + 1 := ⟨limit - 1, by omega⟩
    rw [List.append_assoc, List.cons_append, readValue_brace (skipBlanks_eq_self (by decide) _), skipBlanks_gap,
      List.singleton_append, skipBlanks_cons (by decide)]
    rfl
  walk room path offset rest found hr := by
    rw [List.append_assoc, List.cons_append,
      walkValue_brace (skipBlanks_cursor_self offset (skipBlanks_eq_self (by decide) _)),
      List.singleton_append, skipBlanks_cursor _ gap (skipBlanks_cons (by decide) _)]
    simp [Cursor.past, Nat.add_assoc, Char.utf8Size]

end Atom

end SealedConfig.Json
