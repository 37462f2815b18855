import SealedConfig.Proofs.Cipher.Bytes
import SealedConfig.Proofs.Json.Advancing

/-!
# The walk over bytes

The walk over a text may also go from byte to byte. It then looks at single bytes, a backslash takes the next byte along whatever that
belongs to, and a key is cut out of the text by the bytes where it begins and ends. Such a walk might stop inside a character, cut there,
or go on for ever, and it says when it does. The characters that it looks for are ASCII characters, whose bytes are part of no other
character; so each of its steps over bytes is the step over characters that `Span.walk` makes.
-/

namespace SealedConfig.Json.Bytewise

open Json.Span (Stop Cursor Found endsScalar)

/-! ## The walk -/

/-- Why a walk over bytes has no result: the text is at fault, a cut does not fall on characters, or the room for steps is used up. -/
inductive Halt where
  | stop (stop : Stop)
  | badCut (span : Span)
  | spent
  deriving DecidableEq, Repr

/-- The byte at an offset, as the character that has its code. -/
def peek (raw : String) (pos : Nat) : Option Char := (Bytes.ofText raw)[pos]?.map Char.ofUInt8

theorem lt_length_of_peek {raw : String} {pos : Nat} {c : Char} (h : peek raw pos = some c) : pos < (Bytes.ofText raw).length := by
  obtain ⟨b, hb, -⟩ := Option.map_eq_some_iff.mp h
  exact (List.getElem?_eq_some_iff.mp hb).1

/-- The offset of the first byte from one on that does not pass. -/
def skip (passes : Char → Bool) (raw : String) (pos : Nat) : Nat :=
  match h : peek raw pos with
  | none => pos
  | some c => if passes c then skip passes raw (pos + 1) else pos
termination_by (Bytes.ofText raw).length - pos
decreasing_by have := lt_length_of_peek h; omega

/-- The offset behind a literal, from an offset inside it on. A backslash takes the byte after it along. -/
def literalEnd (raw : String) (pos : Nat) : Except Stop Nat :=
  match h : peek raw pos with
  | none => .error ⟨pos, .unterminatedString⟩
  | some '\\' => literalEnd raw (pos + 2)
  | some '"' => .ok (pos + 1)
  | some _ => literalEnd raw (pos + 1)
termination_by (Bytes.ofText raw).length - pos
decreasing_by all_goals have := lt_length_of_peek h; omega

mutual

/-- Walks a value at a path, or inside a list when there is no path; `room` bounds the steps. -/
def value (raw : String) : (room : Nat) → Option KeyPath → (pos : Nat) → Found → Except Halt (Nat × Found)
  | 0, _, _, _ => .error .spent
  | room + 1, path, pos, found =>
    let pos := skip isBlank raw pos
    match peek raw pos with
    | none => .error (.stop ⟨pos, .endOfInput⟩)
    | some '\x7b' =>
      let inside := skip isBlank raw (pos + 1)
      if peek raw inside = some '\x7d' then .ok (inside + 1, found) else members raw room path inside found
    | some '[' =>
      let inside := skip isBlank raw (pos + 1)
      if peek raw inside = some ']' then .ok (inside + 1, found) else items raw room inside found
    | some '"' =>
      match literalEnd raw (pos + 1) with
      | .error stop => .error (.stop stop)
      | .ok behind =>
        match path with
        | some path => .ok (behind, (path, ⟨pos, behind⟩) :: found)
        | none => .ok (behind, found)
    | some _ =>
      let behind := skip (!endsScalar ·) raw pos
      if behind = pos then .error (.stop ⟨pos, .expectedValue⟩) else .ok (behind, found)

/-- Walks the members of an object from a key on. -/
def members (raw : String) : (room : Nat) → Option KeyPath → (pos : Nat) → Found → Except Halt (Nat × Found)
  | 0, _, _, _ => .error .spent
  | room + 1, path, pos, found =>
    let pos := skip isBlank raw pos
    if peek raw pos = some '"' then
      match literalEnd raw (pos + 1) with
      | .error stop => .error (.stop stop)
      | .ok behind =>
        match Span.slice? raw.toList ⟨pos, behind⟩ with
        | none => .error (.badCut ⟨pos, behind⟩)
        | some written =>
          match literalValue? written with
          | none => .error (.stop ⟨behind, .invalidKey⟩)
          | some key =>
            let colon := skip isBlank raw behind
            if peek raw colon = some ':' then
              match value raw room (path.map (· ++ [key])) (colon + 1) found with
              | .error halt => .error halt
              | .ok (behind, found) =>
                let next := skip isBlank raw behind
                if peek raw next = some ',' then members raw room path (next + 1) found
                else if peek raw next = some '\x7d' then .ok (next + 1, found)
                else .error (.stop ⟨next, .expectedObjectEnd⟩)
            else .error (.stop ⟨colon, .expectedColon⟩)
    else .error (.stop ⟨pos, .expectedKey⟩)

/-- Walks the items of a list from a value on. -/
def items (raw : String) : (room : Nat) → (pos : Nat) → Found → Except Halt (Nat × Found)
  | 0, _, _ => .error .spent
  | room + 1, pos, found =>
    match value raw room none pos found with
    | .error halt => .error halt
    | .ok (behind, found) =>
      let next := skip isBlank raw behind
      if peek raw next = some ',' then items raw room (next + 1) found
      else if peek raw next = some ']' then .ok (next + 1, found)
      else .error (.stop ⟨next, .expectedListEnd⟩)

end

/-- Every literal of a text that stands on a path of keys, later ones first; `start` is the byte behind the byte order mark. -/
def walk (raw : String) (room start : Nat) : Except Halt Found :=
  match value raw room (some []) start [] with
  | .error halt => .error halt
  | .ok (behind, found) =>
    let last := skip isBlank raw behind
    if last = (Bytes.ofText raw).length then .ok found else .error (.stop ⟨last, .trailingCharacters⟩)

/-! ## Characters and their bytes -/

/-- The bytes of characters in a row. -/
def encode (cs : List Char) : Bytes := cs.flatMap String.utf8EncodeChar

theorem length_encode (cs : List Char) : (encode cs).length = utf8Length cs := by
  induction cs with
  | nil => rfl
  | cons c cs ih => rw [encode, List.flatMap_cons, List.length_append, String.length_utf8EncodeChar, utf8Length_cons, ← ih, encode]

/-- An ASCII character is its one byte. -/
theorem utf8EncodeChar_of_lt {c : Char} (h : c.toNat < 0x80) : String.utf8EncodeChar c = [UInt8.ofNat c.toNat] := by
  have hcode := Bytes.utf8EncodeChar_ascii c.toNat h
  rwa [Char.ofNat_toNat] at hcode

/-- The bytes of any other character are no ASCII characters. -/
theorem le_of_mem_utf8EncodeChar {c : Char} (h : 0x80 ≤ c.toNat) : ∀ b ∈ String.utf8EncodeChar c, 0x80 ≤ b.toNat := by
  have hlt : ¬c.val.toNat ≤ 0x7f := Nat.not_le_of_lt h
  have hbyte : ∀ n, 0x80 ≤ n → n < 0x100 → 0x80 ≤ (UInt8.ofNat n).toNat := by
    intro n hn hn'
    rw [UInt8.toNat_ofNat']
    omega
  rw [String.utf8EncodeChar.eq_1, if_neg hlt]
  split
  · simp only [List.forall_mem_cons, List.not_mem_nil, false_imp_iff, implies_true, and_true]
    exact ⟨hbyte _ (by omega) (by omega), hbyte _ (by omega) (by omega)⟩
  split
  · simp only [List.forall_mem_cons, List.not_mem_nil, false_imp_iff, implies_true, and_true]
    exact ⟨hbyte _ (by omega) (by omega), hbyte _ (by omega) (by omega), hbyte _ (by omega) (by omega)⟩
  · simp only [List.forall_mem_cons, List.not_mem_nil, false_imp_iff, implies_true, and_true]
    exact ⟨hbyte _ (by omega) (by omega), hbyte _ (by omega) (by omega), hbyte _ (by omega) (by omega), hbyte _ (by omega) (by omega)⟩

/-- A byte of a character is the character itself when that is an ASCII character, and else no ASCII character. -/
theorem cases_of_mem_utf8EncodeChar {c : Char} {b : UInt8} (hb : b ∈ String.utf8EncodeChar c) :
    (c.toNat < 0x80 ∧ Char.ofUInt8 b = c) ∨ (0x80 ≤ c.toNat ∧ 0x80 ≤ (Char.ofUInt8 b).toNat) := by
  by_cases h : c.toNat < 0x80
  · rw [utf8EncodeChar_of_lt h, List.mem_singleton] at hb
    refine Or.inl ⟨h, Char.toNat_inj.mp ?_⟩
    rw [hb]
    change (UInt8.ofNat c.toNat).toNat = c.toNat
    rw [UInt8.toNat_ofNat']
    omega
  · exact Or.inr ⟨Nat.le_of_not_lt h, le_of_mem_utf8EncodeChar (Nat.le_of_not_lt h) b hb⟩

/-- The bytes of a character behind its first are no ASCII characters. -/
theorem le_of_mem_tail_utf8EncodeChar {c : Char} {b : UInt8} (hb : b ∈ (String.utf8EncodeChar c).tail) :
    0x80 ≤ (Char.ofUInt8 b).toNat := by
  by_cases h : c.toNat < 0x80
  · rw [utf8EncodeChar_of_lt h] at hb
    cases hb
  · exact le_of_mem_utf8EncodeChar (Nat.le_of_not_lt h) b (List.mem_of_mem_tail hb)

/-- The first byte of a character, as the character that has its code. -/
def lead (c : Char) : Char := Char.ofUInt8 ((String.utf8EncodeChar c).head String.utf8EncodeChar_ne_nil)

/-- An ASCII character is seen at the first byte of a character exactly when the character is that. -/
theorem lead_eq_iff {c : Char} {d : Char} (hd : d.toNat < 0x80) : lead c = d ↔ c = d := by
  rcases cases_of_mem_utf8EncodeChar (List.head_mem (String.utf8EncodeChar_ne_nil (c := c))) with ⟨-, h⟩ | ⟨h, h'⟩
  · rw [lead, h]
  · constructor
    · rintro rfl
      exact absurd h' (Nat.not_le_of_lt hd)
    · rintro rfl
      exact absurd h (Nat.not_le_of_lt hd)

/-! ## One step over bytes -/

variable {raw : String} {pos : Nat} {passes : Char → Bool} {c : Char}

/-- Bytes that stand at an offset: the first is seen there, and the others stand one further on. -/
theorem peek_of_drop {pos : Nat} {b : UInt8} {bs : Bytes} (h : (Bytes.ofText raw).drop pos = b :: bs) :
    peek raw pos = some (Char.ofUInt8 b) ∧ (Bytes.ofText raw).drop (pos + 1) = bs := by
  constructor
  · rw [peek, ← List.head?_drop, h]
    rfl
  · rw [← List.drop_drop, h, List.drop_one, List.tail_cons]

/-- A test that takes all characters beyond ASCII alike, so that it may be made on the bytes of a character. -/
def TellsBytes (passes : Char → Bool) : Prop := ∀ d e : Char, 0x80 ≤ d.toNat → 0x80 ≤ e.toNat → passes d = passes e

theorem TellsBytes.eq_of_mem {passes : Char → Bool} (h : TellsBytes passes) {b : UInt8} (hb : b ∈ String.utf8EncodeChar c) :
    passes (Char.ofUInt8 b) = passes c := by
  rcases cases_of_mem_utf8EncodeChar hb with ⟨-, heq⟩ | ⟨hc, hb⟩
  · rw [heq]
  · exact h _ _ hb hc

/-- No character beyond ASCII is one of ASCII. -/
theorem beq_eq_false_of_le {d e : Char} (hd : 0x80 ≤ d.toNat) (he : e.toNat < 0x80) : (d == e) = false := by
  rw [beq_eq_false_iff_ne]
  rintro rfl
  omega

theorem isBlank_eq_false {d : Char} (hd : 0x80 ≤ d.toNat) : isBlank d = false := by
  simp only [isBlank, beq_eq_false_of_le hd (show ' '.toNat < 0x80 by decide), beq_eq_false_of_le hd (show '\n'.toNat < 0x80 by decide),
    beq_eq_false_of_le hd (show '\t'.toNat < 0x80 by decide), beq_eq_false_of_le hd (show '\r'.toNat < 0x80 by decide), Bool.or_false]

theorem endsScalar_eq_false {d : Char} (hd : 0x80 ≤ d.toNat) : endsScalar d = false := by
  simp only [endsScalar, beq_eq_false_of_le hd (show ','.toNat < 0x80 by decide), isBlank_eq_false hd,
    beq_eq_false_of_le hd (show '\x7d'.toNat < 0x80 by decide), beq_eq_false_of_le hd (show ']'.toNat < 0x80 by decide), Bool.or_false]

theorem tellsBytes_isBlank : TellsBytes isBlank := fun _ _ hd he => (isBlank_eq_false hd).trans (isBlank_eq_false he).symm

theorem tellsBytes_scalar : TellsBytes (!endsScalar ·) := by
  intro d e hd he
  dsimp only
  rw [endsScalar_eq_false hd, endsScalar_eq_false he]

theorem skip_eq (passes : Char → Bool) (raw : String) (pos : Nat) :
    skip passes raw pos =
      match peek raw pos with
      | none => pos
      | some c => if passes c then skip passes raw (pos + 1) else pos := by
  rw [skip]
  split <;> rename_i h <;> rw [h]

/-- Bytes that pass are skipped. -/
theorem skip_through {bs after : Bytes} (hdrop : (Bytes.ofText raw).drop pos = bs ++ after)
    (h : ∀ b ∈ bs, passes (Char.ofUInt8 b) = true) : skip passes raw pos = skip passes raw (pos + bs.length) := by
  induction bs generalizing pos with
  | nil => rfl
  | cons b bs ih =>
    obtain ⟨hb, hbs⟩ := List.forall_mem_cons.mp h
    obtain ⟨hpeek, hrest⟩ := peek_of_drop hdrop
    rw [skip_eq, hpeek]
    dsimp only
    rw [if_pos hb, ih hrest hbs, List.length_cons, Nat.add_assoc, Nat.add_comm 1]

theorem literalEnd_eq (raw : String) (pos : Nat) :
    literalEnd raw pos =
      match peek raw pos with
      | none => .error ⟨pos, .unterminatedString⟩
      | some '\\' => literalEnd raw (pos + 2)
      | some '"' => .ok (pos + 1)
      | some _ => literalEnd raw (pos + 1) := by
  rw [literalEnd]
  split <;> simp_all

/-- Bytes that are neither quote nor backslash belong to the literal. -/
theorem literalEnd_through {bs after : Bytes} (hdrop : (Bytes.ofText raw).drop pos = bs ++ after)
    (h : ∀ b ∈ bs, Char.ofUInt8 b ≠ '"' ∧ Char.ofUInt8 b ≠ '\\') : literalEnd raw pos = literalEnd raw (pos + bs.length) := by
  induction bs generalizing pos with
  | nil => rfl
  | cons b bs ih =>
    obtain ⟨⟨hq, hb⟩, hbs⟩ := List.forall_mem_cons.mp h
    obtain ⟨hpeek, hrest⟩ := peek_of_drop hdrop
    have hplain : literalEnd raw pos = literalEnd raw (pos + 1) := by
      rw [literalEnd_eq, hpeek]
      split <;> simp_all
    rw [hplain, ih hrest hbs, List.length_cons, Nat.add_assoc, Nat.add_comm 1]

end SealedConfig.Json.Bytewise

namespace SealedConfig.Json.Span

open Bytewise

/-! ## Where a cursor stands among the bytes -/

variable {raw : String} {cursor : Cursor} {offset : Nat} {rest : List Char}

/-- The bytes from the offset of a cursor on are those of the characters in front of it. -/
theorem StandsIn.drop_eq (h : StandsIn raw cursor) : (Bytes.ofText raw).drop cursor.offset = encode cursor.rest := by
  obtain ⟨before, htext, hoffset⟩ := h
  have hbytes : Bytes.ofText raw = encode before ++ encode cursor.rest := by
    rw [← String.ofList_toList (s := raw), Bytes.ofText_ofList, htext, encode, encode, List.flatMap_append]
  rw [hbytes, hoffset, ← length_encode, List.drop_left]

/-- At its offset a cursor sees the first byte of the character in front of it. -/
theorem StandsIn.peek_eq (h : StandsIn raw cursor) : peek raw cursor.offset = cursor.rest.head?.map lead := by
  have hget : (Bytes.ofText raw)[cursor.offset]? = (encode cursor.rest).head? := by rw [← h.drop_eq, List.head?_drop]
  rw [peek, hget]
  cases cursor.rest with
  | nil => rfl
  | cons c rest =>
    rw [encode, List.flatMap_cons, List.head?_append, List.head?_eq_some_head String.utf8EncodeChar_ne_nil]
    rfl

/-- A cursor sees an ASCII character at its offset exactly when that is in front of it. -/
theorem StandsIn.peek_eq_some_iff (h : StandsIn raw cursor) {d : Char} (hd : d.toNat < 0x80) :
    peek raw cursor.offset = some d ↔ ∃ rest, cursor.rest = d :: rest := by
  rw [h.peek_eq]
  cases cursor.rest with
  | nil => exact ⟨nofun, nofun⟩
  | cons c rest =>
    rw [List.head?_cons, Option.map_some, Option.some.injEq, lead_eq_iff hd]
    exact ⟨fun hc => ⟨rest, by rw [hc]⟩, fun ⟨_, hc⟩ => (List.cons.inj hc).1⟩

/-- A cursor stands as many bytes before the end of a text as the characters in front of it have. -/
theorem StandsIn.length_eq (h : StandsIn raw cursor) : (Bytes.ofText raw).length = cursor.offset + utf8Length cursor.rest := by
  obtain ⟨before, htext, hoffset⟩ := h
  rw [← String.ofList_toList (s := raw), Bytes.ofText_ofList, ← encode, length_encode, htext, utf8Length_append, hoffset]

theorem StandsIn.offset_le_length (h : StandsIn raw cursor) : cursor.offset ≤ (Bytes.ofText raw).length :=
  h.length_eq ▸ Nat.le_add_right _ _

/-- A cursor is at the end of the bytes exactly when nothing is in front of it. -/
theorem StandsIn.offset_eq_length_iff (h : StandsIn raw cursor) : cursor.offset = (Bytes.ofText raw).length ↔ cursor.rest = [] := by
  have hpos := length_le_utf8Length cursor.rest
  rw [h.length_eq, ← List.length_eq_zero_iff]
  constructor
  · intro heq
    omega
  · intro hnil
    rw [List.length_eq_zero_iff.mp hnil, utf8Length_nil, Nat.add_zero]

/-! ## Steps over bytes that are steps over characters -/

/-- Skipping bytes is skipping characters. -/
theorem StandsIn.skip_eq_add (h : StandsIn raw ⟨offset, rest⟩) {passes : Char → Bool} (hp : TellsBytes passes) :
    skip passes raw offset = offset + utf8Length (rest.takeWhile passes) := by
  induction rest generalizing offset with
  | nil =>
    rw [skip_eq, h.peek_eq]
    rfl
  | cons c rest ih =>
    cases hc : passes c with
    | true =>
      have hbytes : ∀ b ∈ String.utf8EncodeChar c, passes (Char.ofUInt8 b) = true := fun b hb => (hp.eq_of_mem hb).trans hc
      have hmore : StandsIn raw ⟨offset + c.utf8Size, rest⟩ := h.past [c] rfl
      rw [skip_through h.drop_eq hbytes, String.length_utf8EncodeChar, ih hmore, List.takeWhile_cons_of_pos hc, utf8Length_cons,
        Nat.add_assoc]
    | false =>
      have hlead : passes (lead c) = false := (hp.eq_of_mem (List.head_mem _)).trans hc
      rw [skip_eq, h.peek_eq, List.takeWhile_cons_of_neg (by rw [hc]; decide)]
      exact if_neg (by rw [hlead]; decide)

/-- Behind a cursor blanks are skipped as they are in front of it. -/
theorem StandsIn.skip_isBlank (h : StandsIn raw cursor) : skip isBlank raw cursor.offset = cursor.skipBlanks.offset :=
  h.skip_eq_add tellsBytes_isBlank

/-- Characters beyond ASCII are neither quote nor backslash. -/
theorem isPlain_of_le {c : Char} (h : 0x80 ≤ c.toNat) : c ≠ '"' ∧ c ≠ '\\' := by
  constructor <;> rintro rfl <;> exact absurd h (by decide)

/-- A character that is neither quote nor backslash belongs to a literal with all its bytes. -/
theorem StandsIn.literalEnd_plain {c : Char} (h : StandsIn raw ⟨offset, c :: rest⟩) (hquote : c ≠ '"') (hbackslash : c ≠ '\\') :
    literalEnd raw offset = literalEnd raw (offset + c.utf8Size) := by
  have hbytes : ∀ b ∈ String.utf8EncodeChar c, Char.ofUInt8 b ≠ '"' ∧ Char.ofUInt8 b ≠ '\\' := by
    intro b hb
    rcases cases_of_mem_utf8EncodeChar hb with ⟨-, heq⟩ | ⟨-, hle⟩
    · rw [heq]
      exact ⟨hquote, hbackslash⟩
    · exact isPlain_of_le hle
  rw [literalEnd_through h.drop_eq hbytes, String.length_utf8EncodeChar]

/-- A backslash takes the whole character behind it along, though it takes only one byte: the others are neither quote nor backslash. -/
theorem StandsIn.literalEnd_escape {c : Char} (h : StandsIn raw ⟨offset, '\\' :: c :: rest⟩) :
    literalEnd raw offset = literalEnd raw (offset + 1 + c.utf8Size) := by
  have hnext : StandsIn raw ⟨offset + 1, c :: rest⟩ := h.past ['\\'] rfl
  have hdrop : (Bytes.ofText raw).drop (offset + 1) = String.utf8EncodeChar c ++ encode rest := hnext.drop_eq
  have htail : (Bytes.ofText raw).drop (offset + 2) = (String.utf8EncodeChar c).tail ++ encode rest := by
    rw [← List.drop_drop (i := 1), hdrop, List.drop_one, List.tail_append_of_ne_nil String.utf8EncodeChar_ne_nil]
  have hlength : offset + 2 + (String.utf8EncodeChar c).tail.length = offset + 1 + c.utf8Size := by
    have hpos := c.utf8Size_pos
    rw [List.length_tail, String.length_utf8EncodeChar]
    omega
  rw [literalEnd_eq, h.peek_eq]
  change literalEnd raw (offset + 2) = _
  rw [literalEnd_through htail fun b hb => isPlain_of_le (le_of_mem_tail_utf8EncodeChar hb), hlength]

/-- A backslash at the end of a text takes nothing along, and the literal does not end. -/
theorem StandsIn.literalEnd_lastBackslash (h : StandsIn raw ⟨offset, ['\\']⟩) :
    literalEnd raw offset = .error ⟨offset + 2, .unterminatedString⟩ := by
  have hlast : StandsIn raw ⟨offset + 1, []⟩ := h.past ['\\'] rfl
  have hend : offset + 1 = (Bytes.ofText raw).length := hlast.offset_eq_length_iff.mpr rfl
  have hnone : peek raw (offset + 2) = none := by
    rw [peek, List.getElem?_eq_none (by omega)]
    rfl
  rw [literalEnd_eq, h.peek_eq]
  change literalEnd raw (offset + 2) = _
  rw [literalEnd_eq, hnone]

/-- A walk over bytes finds the end of a literal that the walk over characters finds. -/
theorem StandsIn.literalEnd_eq_map (h : StandsIn raw ⟨offset, rest⟩) :
    literalEnd raw offset = (endOfString offset rest).map fun (taken, _) => offset + utf8Length taken := by
  fun_induction endOfString offset rest with
  | case1 offset =>
    rw [literalEnd_eq, h.peek_eq]
    rfl
  | case2 offset rest =>
    rw [literalEnd_eq, h.peek_eq]
    rfl
  | case3 offset => exact h.literalEnd_lastBackslash
  | case4 offset c rest ih =>
    have hmore : StandsIn raw ⟨offset + 1 + c.utf8Size, rest⟩ := (h.past ['\\'] rfl).past [c] rfl
    rw [h.literalEnd_escape, ih hmore]
    cases endOfString (offset + 1 + c.utf8Size) rest with
    | error => rfl
    | ok found => simp [Except.map, Char.utf8Size, Nat.add_assoc]
  | case5 offset c rest hquote hlone hescape ih =>
    have hmore : StandsIn raw ⟨offset + c.utf8Size, rest⟩ := h.past [c] rfl
    have hbackslash : c ≠ '\\' := by
      rintro rfl
      cases rest with
      | nil => exact hlone rfl rfl
      | cons d rest => exact hescape d rest rfl rfl
    rw [h.literalEnd_plain hquote hbackslash, ih hmore]
    cases endOfString (offset + c.utf8Size) rest with
    | error => rfl
    | ok found => simp [Except.map, Nat.add_assoc]

end SealedConfig.Json.Span
