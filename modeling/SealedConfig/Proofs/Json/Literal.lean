import SealedConfig.Json.Printer
import SealedConfig.Proofs.Json.Offset
import SealedConfig.Proofs.Outcome

/-!
# String literals

The reader of trees and the walk over literals find the same end of a literal, whatever escapes it holds. `Spells` says so of
the inside of a literal and the text it spells; what a printer writes spells the text it was given.
-/

namespace SealedConfig.Json

open Json.Span (endOfString)
open Outcome

/-- Both readers take the characters for the inside of a literal: one for the text `cs`, the other up to its closing quote. -/
structure Spells (inside cs : List Char) : Prop where
  read : ∀ rest, readString (inside ++ '"' :: rest) = .ok (cs, rest)
  walk : ∀ offset rest, endOfString offset (inside ++ '"' :: rest) = .ok (inside ++ ['"'], rest)

/-- The characters behind a backslash that both readers take together: one for the character `c`. -/
structure IsEscape (escape : List Char) (c : Char) : Prop where
  read : ∀ rest, readEscape (escape ++ rest) = .ok (c, escape.length)
  walk : ∀ offset rest, ∃ offset', endOfString offset ('\\' :: escape ++ rest) =
    (endOfString offset' rest).map fun (taken, after) => ('\\' :: escape ++ taken, after)

namespace LiteralAux

/-! ## The walk over a literal -/

/-- The walk passes a character that neither closes a literal nor begins an escape. -/
theorem endOfString_cons {c : Char} (hq : c ≠ '"') (hb : c ≠ '\\') (offset : Nat) (rest : List Char) :
    endOfString offset (c :: rest) =
      (endOfString (offset + c.utf8Size) rest).map fun (taken, after) => (c :: taken, after) := by
  rw [endOfString]
  · exact fun h => hq h
  · exact fun h => absurd h hb
  · exact fun _ _ h => absurd h hb

/-- The walk passes characters that neither close a literal nor begin an escape. -/
theorem endOfString_append {cs : List Char} (h : ∀ c ∈ cs, c ≠ '"' ∧ c ≠ '\\') (offset : Nat) (rest : List Char) :
    ∃ offset', endOfString offset (cs ++ rest) =
      (endOfString offset' rest).map fun (taken, after) => (cs ++ taken, after) := by
  induction cs generalizing offset with
  | nil => exact ⟨offset, by cases hr : endOfString offset rest <;> simp [hr, Except.map]⟩
  | cons c cs ih =>
    obtain ⟨hq, hb⟩ := h c List.mem_cons_self
    obtain ⟨offset', ho⟩ := ih (fun x hx => h x (List.mem_cons_of_mem _ hx)) (offset + c.utf8Size)
    refine ⟨offset', ?_⟩
    rw [List.cons_append, endOfString_cons hq hb, ho]
    cases endOfString offset' rest <;> rfl

/-! ## Units of four hexadecimal digits -/

/-- Four digits spell no quote and no backslash. -/
theorem plain_of_hexValue? {a b c d : Char} {n : Nat} (h : hexValue? a b c d = some n) :
    ∀ x ∈ [a, b, c, d], x ≠ '"' ∧ x ≠ '\\' := by
  intro x hx
  constructor
  all_goals
    rintro rfl
    simp only [hexValue?, Option.bind_eq_bind] at h
    simp only [List.mem_cons, List.not_mem_nil, or_false] at hx
    rcases hx with rfl | rfl | rfl | rfl <;> simp at h

/-- A unit is read from its four digits, whatever follows them. -/
theorem readUnit_cons {a b c d : Char} {n : Nat} (h : hexValue? a b c d = some n) (rest : List Char) :
    readUnit (a :: b :: c :: d :: rest) = .ok n := by
  have hlen := length_le_utf8Length (a :: b :: c :: d :: rest)
  have : ¬ utf8Length (a :: b :: c :: d :: rest) < 4 := by simp only [List.length_cons] at hlen; omega
  rw [readUnit, if_neg this]
  simp only [h]

/-- Only four digits are read as a unit. -/
theorem exists_of_readUnit {s : List Char} {n : Nat} (h : readUnit s = .ok n) :
    ∃ a b c d rest, s = a :: b :: c :: d :: rest ∧ hexValue? a b c d = some n := by
  unfold readUnit at h
  split at h
  · cases h
  · rcases s with _ | ⟨a, _ | ⟨b, _ | ⟨c, _ | ⟨d, rest⟩⟩⟩⟩
    case cons.cons.cons.cons =>
      cases hn : hexValue? a b c d with
      | none => simp [hn] at h
      | some m =>
        simp only [hn, Except.ok.injEq] at h
        subst h
        exact ⟨a, b, c, d, rest, rfl, hn⟩
    all_goals cases h

end LiteralAux

namespace LiteralAux

/-! ## Escapes -/

/-- An escape of one character. -/
theorem isEscape_single {x c : Char} (h : ∀ rest, readEscape (x :: rest) = .ok (c, 1)) : IsEscape [x] c where
  read := h
  walk offset rest := ⟨offset + 1 + x.utf8Size, by simp [endOfString]⟩

/-- An escape of the letter `u` and characters that are no quote and no backslash up to a further escape. -/
theorem walk_unit {a b c d : Char} {n : Nat} (h : hexValue? a b c d = some n) (offset : Nat) (rest : List Char) :
    ∃ offset', endOfString offset ('\\' :: 'u' :: a :: b :: c :: d :: rest) =
      (endOfString offset' rest).map fun (taken, after) => ('\\' :: 'u' :: a :: b :: c :: d :: taken, after) := by
  obtain ⟨offset', ho⟩ := endOfString_append (plain_of_hexValue? h) (offset + 1 + Char.utf8Size 'u') rest
  refine ⟨offset', ?_⟩
  rw [endOfString, show a :: b :: c :: d :: rest = [a, b, c, d] ++ rest from rfl, ho]
  cases endOfString offset' rest <;> rfl

/-- A unit that is no surrogate is a whole escape. -/
theorem isEscape_unit {a b c d : Char} {n : Nat} (h : hexValue? a b c d = some n) (hn : n < 0xd800 ∨ 0xdfff < n) :
    IsEscape ['u', a, b, c, d] (Char.ofNat n) where
  read rest := by
    have h1 : ¬(0xdc00 ≤ n ∧ n ≤ 0xdfff) := by omega
    have h2 : n < 0xd800 ∨ 0xdbff < n := by omega
    simp [readEscape, readUnicodeEscape, readUnit_cons h, h1, h2, bind, Except.bind, pure, Except.pure, Except.map]
  walk := walk_unit h

/-- A leading surrogate and a trailing one make one escape. -/
theorem isEscape_pair {a b c d a' b' c' d' : Char} {high low : Nat} (hh : hexValue? a b c d = some high)
    (hl : hexValue? a' b' c' d' = some low) (hhigh : 0xd800 ≤ high ∧ high ≤ 0xdbff)
    (hlow : 0xdc00 ≤ low ∧ low ≤ 0xdfff) :
    IsEscape ['u', a, b, c, d, '\\', 'u', a', b', c', d']
      (Char.ofNat (0x10000 + (high - 0xd800) * 0x400 + (low - 0xdc00))) where
  read rest := by
    have h1 : ¬(0xdc00 ≤ high ∧ high ≤ 0xdfff) := by omega
    have h2 : ¬(high < 0xd800 ∨ 0xdbff < high) := by omega
    have h3 : ¬(low < 0xdc00 ∨ 0xdfff < low) := by omega
    simp [readEscape, readUnicodeEscape, readUnit_cons hh, readUnit_cons hl, h1, h2, h3, bind, Except.bind, pure,
      Except.pure, Except.map]
  walk offset rest := by
    obtain ⟨o, ho⟩ := walk_unit hh offset ('\\' :: 'u' :: a' :: b' :: c' :: d' :: rest)
    obtain ⟨o', ho'⟩ := walk_unit hl o rest
    refine ⟨o', ?_⟩
    simp only [List.cons_append, List.nil_append]
    rw [ho, ho']
    cases endOfString o' rest <;> rfl

/-- What is read as an escape behind the letter `u` is one. -/
theorem exists_of_readUnicodeEscape {s : List Char} {c : Char} {size : Nat}
    (h : readUnicodeEscape s = .ok (c, size)) :
    ∃ escape rest, s = escape ++ rest ∧ escape.length = size ∧ IsEscape ('u' :: escape) c := by
  obtain ⟨n, hu, h⟩ := exists_of_bind h
  obtain ⟨x, y, z, w, rest, rfl, hn⟩ := exists_of_readUnit hu
  by_cases h1 : 0xdc00 ≤ n ∧ n ≤ 0xdfff
  · simp [h1, bind, Except.bind, throw, throwThe, MonadExceptOf.throw] at h
  by_cases h2 : n < 0xd800 ∨ 0xdbff < n
  · simp [h1, h2, pure, Except.pure] at h
    obtain ⟨rfl, rfl⟩ := h
    exact ⟨[x, y, z, w], rest, rfl, rfl, isEscape_unit hn (by omega)⟩
  simp only [h1, h2, if_false, List.drop_succ_cons, List.drop_zero] at h
  split at h
  · cases h
  · split at h
    · cases h
    · obtain ⟨low, hu', h⟩ := exists_of_bind h
      obtain ⟨x', y', z', w', rest', rfl, hl⟩ := exists_of_readUnit hu'
      by_cases h3 : low < 0xdc00 ∨ 0xdfff < low
      · simp [h3, bind, Except.bind, throw, throwThe, MonadExceptOf.throw] at h
      · simp [h3, pure, Except.pure] at h
        obtain ⟨rfl, rfl⟩ := h
        exact ⟨[x, y, z, w, '\\', 'u', x', y', z', w'], rest', rfl, rfl,
          isEscape_pair hn hl (by omega) (by omega)⟩
    · cases h
  · cases h

/-- What is read as an escape is one. -/
theorem exists_of_readEscape {s : List Char} {c : Char} {size : Nat} (h : readEscape s = .ok (c, size)) :
    ∃ escape rest, s = escape ++ rest ∧ escape.length = size ∧ IsEscape escape c := by
  unfold readEscape at h
  split at h
  case h_10 rest =>
    obtain ⟨⟨c', n⟩, hr, hc⟩ := exists_of_map h
    simp only [Prod.mk.injEq] at hc
    obtain ⟨rfl, rfl⟩ := hc
    obtain ⟨escape, rest', rfl, rfl, he⟩ := exists_of_readUnicodeEscape hr
    exact ⟨'u' :: escape, rest', rfl, rfl, he⟩
  case h_1 => cases h
  case h_11 => cases h
  all_goals
    simp only [Except.ok.injEq, Prod.mk.injEq] at h
    obtain ⟨rfl, rfl⟩ := h
    exact ⟨[_], _, rfl, rfl, isEscape_single fun _ => rfl⟩

end LiteralAux

open LiteralAux

/-! ## What spells a text -/

theorem Spells.nil : Spells [] [] where
  read _ := by rw [List.nil_append, readString]; simp
  walk _ _ := rfl

/-- A character above the control characters spells itself. -/
theorem Spells.plain {c : Char} {inside cs : List Char} (hq : c ≠ '"') (hb : c ≠ '\\') (hc : 0x20 ≤ c.toNat)
    (h : Spells inside cs) : Spells (c :: inside) (c :: cs) where
  read rest := by
    rw [List.cons_append, readString, if_neg hq, if_neg hb, if_neg (by omega), h.read]
    rfl
  walk offset rest := by
    rw [List.cons_append, endOfString_cons hq hb, h.walk]
    rfl

/-- An escape spells its character. -/
theorem Spells.escape {escape : List Char} {c : Char} {inside cs : List Char} (he : IsEscape escape c)
    (h : Spells inside cs) : Spells ('\\' :: escape ++ inside) (c :: cs) where
  read rest := by
    rw [List.append_assoc, List.cons_append, readString, if_neg (by decide), if_pos rfl, he.read]
    simp only [ok_bind]
    rw [List.drop_left, h.read]
    rfl
  walk offset rest := by
    obtain ⟨offset', ho⟩ := he.walk offset (inside ++ '"' :: rest)
    rw [List.append_assoc, ho, h.walk]
    simp

/-- What is read as a string spells it, up to the closing quote. -/
theorem exists_of_readString (s : List Char) {cs after : List Char} (h : readString s = .ok (cs, after)) :
    ∃ inside, s = inside ++ '"' :: after ∧ Spells inside cs := by
  fun_induction readString s generalizing cs after with
  | case1 => cases h
  | case2 rest =>
    cases h
    exact ⟨[], rfl, Spells.nil⟩
  | case3 rest hq ih =>
    obtain ⟨⟨c, size⟩, he, hk⟩ := exists_of_bind h
    obtain ⟨⟨more, after'⟩, hr, hp⟩ := exists_of_bind hk
    simp only [pure, Except.pure, Except.ok.injEq, Prod.mk.injEq] at hp
    obtain ⟨rfl, rfl⟩ := hp
    obtain ⟨escape, rest', rfl, rfl, hesc⟩ := exists_of_readEscape he
    obtain ⟨inside, hin, hs⟩ := ih _ hr
    rw [List.drop_left] at hin
    exact ⟨'\\' :: escape ++ inside, by simp [hin], Spells.escape hesc hs⟩
  | case4 => cases h
  | case5 c rest hq hb hc ih =>
    obtain ⟨⟨more, after'⟩, hr, hp⟩ := exists_of_bind h
    simp only [pure, Except.pure, Except.ok.injEq, Prod.mk.injEq] at hp
    obtain ⟨rfl, rfl⟩ := hp
    obtain ⟨inside, rfl, hs⟩ := ih hr
    exact ⟨c :: inside, rfl, Spells.plain hq hb (by omega) hs⟩

/-! ## Literals -/

namespace LiteralAux

/-- The four digits that a control character is written with. -/
theorem hexValue?_hexDigit : ∀ n < 0x20, hexValue? '0' '0' (hexDigit (n / 16)) (hexDigit (n % 16)) = some n := by
  decide

/-- What a printer writes for a character spells it. -/
theorem spells_escapeChar (c : Char) {inside cs : List Char} (h : Spells inside cs) :
    Spells (escapeChar c ++ inside) (c :: cs) := by
  unfold escapeChar
  split
  · rename_i h1; subst h1; exact h.escape (isEscape_single fun _ => rfl)
  split
  · rename_i h2; subst h2; exact h.escape (isEscape_single fun _ => rfl)
  split
  · rename_i h3; subst h3; exact h.escape (isEscape_single fun _ => rfl)
  split
  · rename_i h4; subst h4; exact h.escape (isEscape_single fun _ => rfl)
  split
  · rename_i h5; subst h5; exact h.escape (isEscape_single fun _ => rfl)
  split
  · rename_i h6; subst h6; exact h.escape (isEscape_single fun _ => rfl)
  split
  · rename_i h7; subst h7; exact h.escape (isEscape_single fun _ => rfl)
  split
  · rename_i h8
    have he := isEscape_unit (hexValue?_hexDigit c.toNat h8) (by omega)
    rw [Char.ofNat_toNat] at he
    exact h.escape he
  · rename_i h1 h2 _ _ _ _ _ h8
    exact h.plain h1 h2 (by omega)

end LiteralAux

/-- What a printer writes for a text spells it. -/
theorem spells_flatMap_escapeChar (cs : List Char) : Spells (cs.flatMap escapeChar) cs := by
  induction cs with
  | nil => exact Spells.nil
  | cons c cs ih => exact LiteralAux.spells_escapeChar c ih

/-- A string literal of a text: what stands between its quotes, and the text that it spells. -/
structure Literal where
  inside : List Char
  value : String
  spells : Spells inside value.toList

namespace Literal

/-- The characters of a literal, quotes included. -/
def text (l : Literal) : List Char := '"' :: l.inside ++ ['"']

/-- The literal that a printer writes. -/
def written (value : String) : Literal := ⟨value.toList.flatMap escapeChar, value, spells_flatMap_escapeChar _⟩

@[simp] theorem value_written (value : String) : (written value).value = value := rfl

@[simp] theorem text_written (value : String) : (written value).text = literal value := by
  simp [text, written, literal]

/-- A literal is read as the text that it spells. -/
@[simp] theorem literalValue?_text (l : Literal) : literalValue? l.text = some l.value := by
  simp [text, literalValue?, l.spells.read []]

end Literal

end SealedConfig.Json
