import SealedConfig.Encoding.Base64
import SealedConfig.Proofs.Cipher.Bytes
import SealedConfig.Proofs.Outcome
import SealedConfig.Text.Blank

/-!
# What is written in base 64 is read back

Reading takes whole groups as long as more input follows and then the last group; writing makes groups of the same sizes. The two
are compared group by group, for padded and bare variants alike.
-/

namespace SealedConfig.Base64

open Outcome

/-- The symbols of a variant are ASCII, none of them is the padding, and each is read as the value that it is written for. -/
def Variant.IsLawful (v : Variant) : Prop :=
  ∀ n < 64, v.value? (v.symbol n) = some n ∧ v.symbol n ≠ padding ∧ v.symbol n < 128

theorem isLawful_standard : standard.IsLawful := by unfold Variant.IsLawful; decide

theorem isLawful_urlSafe : urlSafe.IsLawful := by unfold Variant.IsLawful; decide

namespace Variant

variable {v : Variant}

/-- A byte of a written text is the padding or the symbol of a value. -/
def IsWritten (v : Variant) (b : UInt8) : Prop := (v.padded = true ∧ b = padding) ∨ ∃ n < 64, b = v.symbol n

/-- Nothing stands behind a group that is full. -/
@[simp] theorem fill_zero : v.fill 0 = [] := by
  unfold fill
  split <;> rfl

/-- No input spells no bytes. -/
theorem decodeTail_nil (base : Nat) : v.decodeTail base [] = .ok [] := by
  unfold decodeTail
  cases v.padded <;> rfl

namespace RoundTripAux

/-! ## Groups of symbols -/

theorem values_symbols (hv : v.IsLawful) (offset : Nat) {ns : List Nat} (h : ∀ n ∈ ns, n < 64) :
    v.values offset (ns.map v.symbol) = .ok ns := by
  induction ns generalizing offset with
  | nil => rfl
  | cons n ns ih =>
    rw [List.map_cons, values, (hv n (h n List.mem_cons_self)).1]
    dsimp only
    rw [ih (offset + 1) fun m hm => h m (List.mem_cons_of_mem _ hm)]
    rfl

/-- Symbols are scanned as their values. -/
theorem scanTail_symbols (hv : v.IsLawful) (base place : Nat) (symbols : Bytes) (values : List Nat) {ns : List Nat}
    (h : ∀ n ∈ ns, n < 64) (rest : Bytes) :
    v.scanTail base place ⟨symbols, values, none, 0⟩ (ns.map v.symbol ++ rest) =
      v.scanTail base (place + ns.length) ⟨symbols ++ ns.map v.symbol, values ++ ns, none, 0⟩ rest := by
  induction ns generalizing place symbols values with
  | nil => simp
  | cons n ns ih =>
    obtain ⟨hvalue, hpad, -⟩ := hv n (h n List.mem_cons_self)
    rw [List.map_cons, List.cons_append, scanTail, if_neg hpad]
    dsimp only
    rw [hvalue]
    dsimp only
    rw [ih _ _ _ fun m hm => h m (List.mem_cons_of_mem _ hm)]
    simp [Nat.add_assoc, Nat.add_comm 1]

/-- Padding behind the first two places is counted. -/
theorem scanTail_padding (base place count : Nat) (tail : Tail) (h : 2 ≤ place) :
    ∃ start, v.scanTail base place tail (List.replicate count padding) =
      .ok ⟨tail.symbols, tail.values, start, tail.paddingCount + count⟩ := by
  induction count generalizing place tail with
  | zero => exact ⟨tail.paddingStart, rfl⟩
  | succ count ih =>
    obtain ⟨start, hs⟩ := ih (place + 1)
      { tail with paddingStart := some (tail.paddingStart.getD place), paddingCount := tail.paddingCount + 1 } (by omega)
    refine ⟨start, ?_⟩
    rw [List.replicate_succ, scanTail, if_pos rfl, if_neg (by omega), hs]
    simp [Nat.add_assoc, Nat.add_comm 1]

/-- A last group of two to four symbols, filled up or not, is read from their values. -/
theorem decodeTail_symbols (hv : v.IsLawful) (base : Nat) {ns : List Nat} (h : ∀ n ∈ ns, n < 64)
    (hlen : 2 ≤ ns.length ∧ ns.length ≤ 4) :
    v.decodeTail base (ns.map v.symbol ++ v.fill (4 - ns.length)) = tailBytes base (ns.map v.symbol) ns := by
  obtain ⟨start, count, hscan, hcount⟩ : ∃ start count,
      v.scanTail base 0 ⟨[], [], none, 0⟩ (ns.map v.symbol ++ v.fill (4 - ns.length)) =
        .ok ⟨ns.map v.symbol, ns, start, count⟩ ∧ count = if v.padded then 4 - ns.length else 0 := by
    rw [scanTail_symbols hv base 0 [] [] h, fill]
    cases hp : v.padded with
    | false => exact ⟨none, 0, rfl, rfl⟩
    | true =>
      obtain ⟨start, hs⟩ := scanTail_padding (v := v) base (0 + ns.length) (4 - ns.length)
        ⟨[] ++ ns.map v.symbol, [] ++ ns, none, 0⟩ (by omega)
      exact ⟨start, 4 - ns.length, by simpa using hs, rfl⟩
  rw [decodeTail, hscan, ok_bind, hcount]
  dsimp only
  rw [if_neg (by omega)]
  cases hp : v.padded with
  | false => rfl
  | true =>
    have hfull : (4 - ns.length + ns.length) % 4 = 0 := by omega
    simp [hfull]

/-- The three bytes of four values. -/
def groupBytes (w x y z : Nat) : Bytes :=
  let n := ((w * 64 + x) * 64 + y) * 64 + z
  [UInt8.ofNat (n / 65536), UInt8.ofNat (n / 256 % 256), UInt8.ofNat (n % 256)]

/-- A group of four symbols that more input follows is read from their values. -/
theorem decodeGroups_cons (hv : v.IsLawful) (base w x y z : Nat) (h : ∀ n ∈ [w, x, y, z], n < 64) {rest : Bytes}
    (hne : rest ≠ []) :
    v.decodeGroups base ([w, x, y, z].map v.symbol ++ rest) =
      (v.decodeGroups (base + 4) rest).map (groupBytes w x y z ++ ·) := by
  rcases rest with _ | ⟨e, rest⟩
  · exact absurd rfl hne
  · have hvalues := values_symbols hv base h
    simp only [List.map_cons, List.map_nil, List.cons_append, List.nil_append] at hvalues ⊢
    rw [decodeGroups, hvalues, ok_bind]
    dsimp only
    cases v.decodeGroups (base + 4) (e :: rest) <;> rfl

/-- Input of at most four bytes is a last group. -/
theorem decodeGroups_of_length_le (base : Nat) {input : Bytes} (h : input.length ≤ 4) :
    v.decodeGroups base input = v.decodeTail base input := by
  rcases input with _ | ⟨a, _ | ⟨b, _ | ⟨c, _ | ⟨d, _ | ⟨e, input⟩⟩⟩⟩⟩
  case cons.cons.cons.cons.cons => simp only [List.length_cons] at h; omega
  all_goals rfl

/-- A last group of two to four symbols is read from their values. -/
theorem decodeGroups_last (hv : v.IsLawful) (base : Nat) {ns : List Nat} (h : ∀ n ∈ ns, n < 64)
    (hlen : 2 ≤ ns.length ∧ ns.length ≤ 4) :
    v.decodeGroups base (ns.map v.symbol ++ v.fill (4 - ns.length)) = tailBytes base (ns.map v.symbol) ns := by
  rw [decodeGroups_of_length_le, decodeTail_symbols hv base h hlen]
  have hfill : (v.fill (4 - ns.length)).length ≤ 4 - ns.length := by
    rw [fill]
    split <;> simp
  rw [List.length_append, List.length_map]
  omega

/-! ## Groups of bytes -/

/-- What is written for a byte string that is not empty is not empty. -/
theorem encodeBytes_ne_nil {bytes : Bytes} (h : bytes ≠ []) : v.encodeBytes bytes ≠ [] := by
  rcases bytes with _ | ⟨a, _ | ⟨b, _ | ⟨c, rest⟩⟩⟩
  · exact absurd rfl h
  all_goals simp [encodeBytes]

/-- The bytes of a text are symbols or padding. -/
theorem isWritten_of_mem {bytes : Bytes} {s : UInt8} (h : s ∈ v.encodeBytes bytes) : v.IsWritten s := by
  have hfill : ∀ n, s ∈ v.fill n → v.IsWritten s := by
    intro n hs
    rw [fill] at hs
    split at hs
    · rename_i hp
      exact Or.inl ⟨hp, List.eq_of_mem_replicate hs⟩
    · cases hs
  fun_induction encodeBytes v bytes with
  | case1 => cases h
  | case2 a n =>
    have ha := a.toNat_lt
    simp only [List.cons_append, List.nil_append, List.mem_cons] at h
    rcases h with rfl | rfl | h
    · exact Or.inr ⟨_, by omega, rfl⟩
    · exact Or.inr ⟨_, Nat.mod_lt _ (by decide), rfl⟩
    · exact hfill _ h
  | case3 a b n =>
    have ha := a.toNat_lt
    have hb := b.toNat_lt
    simp only [List.cons_append, List.nil_append, List.mem_cons] at h
    rcases h with rfl | rfl | rfl | h
    · exact Or.inr ⟨_, by omega, rfl⟩
    · exact Or.inr ⟨_, Nat.mod_lt _ (by decide), rfl⟩
    · exact Or.inr ⟨_, Nat.mod_lt _ (by decide), rfl⟩
    · exact hfill _ h
  | case4 a b c rest n ih =>
    have ha := a.toNat_lt
    have hb := b.toNat_lt
    have hc := c.toNat_lt
    simp only [List.cons_append, List.nil_append, List.mem_cons] at h
    rcases h with rfl | rfl | rfl | rfl | h
    · exact Or.inr ⟨_, by omega, rfl⟩
    · exact Or.inr ⟨_, Nat.mod_lt _ (by decide), rfl⟩
    · exact Or.inr ⟨_, Nat.mod_lt _ (by decide), rfl⟩
    · exact Or.inr ⟨_, Nat.mod_lt _ (by decide), rfl⟩
    · exact ih h

/-- The two symbols of one byte spell it. -/
theorem tailBytes_one (base : Nat) (symbols : Bytes) (a : UInt8) :
    tailBytes base symbols [a.toNat * 16 / 64, a.toNat * 16 % 64] = .ok [a] := by
  have hn : a.toNat * 16 / 64 * 64 + a.toNat * 16 % 64 = a.toNat * 16 := by omega
  simp only [tailBytes, hn]
  rw [if_pos (by omega), Nat.mul_div_cancel _ (by decide), UInt8.ofNat_toNat]

/-- The three symbols of two bytes spell them. -/
theorem tailBytes_two (base : Nat) (symbols : Bytes) (a b : UInt8) :
    tailBytes base symbols [(a.toNat * 256 + b.toNat) * 4 / 4096, (a.toNat * 256 + b.toNat) * 4 / 64 % 64,
      (a.toNat * 256 + b.toNat) * 4 % 64] = .ok [a, b] := by
  have hb := b.toNat_lt
  have hn : ((a.toNat * 256 + b.toNat) * 4 / 4096 * 64 + (a.toNat * 256 + b.toNat) * 4 / 64 % 64) * 64 +
      (a.toNat * 256 + b.toNat) * 4 % 64 = (a.toNat * 256 + b.toNat) * 4 := by omega
  have ha : (a.toNat * 256 + b.toNat) * 4 / 1024 = a.toNat := by omega
  have hb' : (a.toNat * 256 + b.toNat) * 4 / 4 % 256 = b.toNat := by omega
  simp only [tailBytes, hn]
  rw [if_pos (by omega), ha, hb', UInt8.ofNat_toNat, UInt8.ofNat_toNat]

/-- The four symbols of three bytes spell them. -/
theorem groupBytes_eq (a b c : UInt8) :
    let n := (a.toNat * 256 + b.toNat) * 256 + c.toNat
    groupBytes (n / 262144) (n / 4096 % 64) (n / 64 % 64) (n % 64) = [a, b, c] := by
  intro n
  have hb := b.toNat_lt
  have hc := c.toNat_lt
  have hn : ((n / 262144 * 64 + n / 4096 % 64) * 64 + n / 64 % 64) * 64 + n % 64 = n := by omega
  have h1 : n / 65536 = a.toNat := by omega
  have h2 : n / 256 % 256 = b.toNat := by omega
  have h3 : n % 256 = c.toNat := by omega
  rw [groupBytes, hn, h1, h2, h3, UInt8.ofNat_toNat, UInt8.ofNat_toNat, UInt8.ofNat_toNat]

/-- Written groups are read back. -/
theorem decodeGroups_encodeBytes (hv : v.IsLawful) (base : Nat) (bytes : Bytes) :
    v.decodeGroups base (v.encodeBytes bytes) = .ok bytes := by
  fun_induction encodeBytes v bytes generalizing base with
  | case1 => exact decodeTail_nil base
  | case2 a n =>
    have ha := a.toNat_lt
    have hns : ∀ m ∈ [n / 64, n % 64], m < 64 := by
      simp only [List.mem_cons, List.not_mem_nil, or_false, forall_eq_or_imp, forall_eq]
      omega
    exact (decodeGroups_last hv base hns (by simp)).trans (tailBytes_one base _ a)
  | case3 a b n =>
    have ha := a.toNat_lt
    have hb := b.toNat_lt
    have hns : ∀ m ∈ [n / 4096, n / 64 % 64, n % 64], m < 64 := by
      simp only [List.mem_cons, List.not_mem_nil, or_false, forall_eq_or_imp, forall_eq]
      omega
    exact (decodeGroups_last hv base hns (by simp)).trans (tailBytes_two base _ a b)
  | case4 a b c rest n ih =>
    have ha := a.toNat_lt
    have hb := b.toNat_lt
    have hc := c.toNat_lt
    have hns : ∀ m ∈ [n / 262144, n / 4096 % 64, n / 64 % 64, n % 64], m < 64 := by
      simp only [List.mem_cons, List.not_mem_nil, or_false, forall_eq_or_imp, forall_eq]
      omega
    by_cases hne : rest = []
    · subst hne
      have hlast := decodeGroups_last hv base hns (by simp)
      rw [show 4 - [n / 262144, n / 4096 % 64, n / 64 % 64, n % 64].length = 0 from rfl, fill_zero] at hlast
      exact hlast.trans (congrArg Except.ok (groupBytes_eq a b c))
    · have hcons := decodeGroups_cons hv base _ _ _ _ hns (encodeBytes_ne_nil (v := v) hne)
      rw [ih, ok_map, groupBytes_eq a b c] at hcons
      exact hcons

end RoundTripAux

open RoundTripAux

/-- No written text has a stray last byte. -/
theorem strayLast?_encodeBytes (hv : v.IsLawful) (bytes : Bytes) : v.strayLast? (v.encodeBytes bytes) = none := by
  rw [strayLast?]
  split
  · rename_i b hb
    rw [if_neg]
    rintro ⟨-, hpad, hvalue⟩
    rcases isWritten_of_mem (List.mem_of_getLast? hb) with ⟨-, hp⟩ | ⟨n, hn, rfl⟩
    · exact hpad hp
    · rw [(hv n hn).1] at hvalue
      cases hvalue
  · rfl

/-- What is written for a byte string is read as that byte string. -/
theorem decodeBytes_encodeBytes (hv : v.IsLawful) (bytes : Bytes) : v.decodeBytes (v.encodeBytes bytes) = .ok bytes := by
  rw [decodeBytes, strayLast?_encodeBytes hv]
  exact decodeGroups_encodeBytes hv 0 bytes

/-- A written text is ASCII. -/
theorem lt_of_isWritten (hv : v.IsLawful) {b : UInt8} (h : v.IsWritten b) : b < 128 := by
  rcases h with ⟨-, rfl⟩ | ⟨n, hn, rfl⟩
  · decide
  · exact (hv n hn).2.2

/-- A text that is written with symbols that are not blank has no blanks. -/
theorem isBlank_of_mem_encode (hv : ∀ n < 64, isBlank (Char.ofNat (v.symbol n).toNat) = false) {bytes : Bytes} {c : Char}
    (hc : c ∈ (v.encode bytes).toList) : isBlank c = false := by
  rw [encode, String.toList_ofList] at hc
  obtain ⟨b, hb, rfl⟩ := List.mem_map.mp hc
  rcases isWritten_of_mem hb with ⟨-, rfl⟩ | ⟨n, hn, rfl⟩
  · decide
  · exact hv n hn

/-- The bytes of a written text are those that are written. -/
theorem ofText_encode (hv : v.IsLawful) (bytes : Bytes) : Bytes.ofText (v.encode bytes) = v.encodeBytes bytes :=
  Bytes.ofText_ascii fun _ hb => lt_of_isWritten hv (isWritten_of_mem hb)

/-- A last group that is read is what its symbols spell. They are at least two where there is input, and they are filled up or stand
alone, as the variant has it. -/
theorem exists_tail_of_decodeTail {base : Nat} {input bytes : Bytes} (h : v.decodeTail base input = .ok bytes) :
    ∃ tail, v.scanTail base 0 ⟨[], [], none, 0⟩ input = .ok tail ∧ (input ≠ [] → 2 ≤ tail.values.length) ∧
      (if v.padded then (tail.paddingCount + tail.values.length) % 4 = 0 else tail.paddingCount = 0) ∧
      tailBytes base tail.symbols tail.values = .ok bytes := by
  obtain ⟨tail, hscan, h⟩ := exists_of_bind h
  obtain ⟨hshort, h⟩ := of_ite_throw h
  refine ⟨tail, hscan, fun hne => Nat.le_of_not_lt fun hlt => hshort ⟨hne, hlt⟩, ?_⟩
  dsimp only at h
  split at h
  · obtain ⟨hfull, h⟩ := of_ite_throw h
    exact ⟨by rw [if_pos ‹_›]; exact Decidable.not_not.mp hfull, h⟩
  · obtain ⟨hnone, h⟩ := of_ite_throw h
    exact ⟨by rw [if_neg ‹_›]; exact Nat.eq_zero_of_not_pos hnone, h⟩

/-- A last group makes at most three bytes. -/
theorem length_le_of_decodeTail {base : Nat} {input bytes : Bytes} (h : v.decodeTail base input = .ok bytes) :
    bytes.length ≤ 3 := by
  obtain ⟨tail, -, -, -, htail⟩ := exists_tail_of_decodeTail h
  rw [tailBytes.eq_def] at htail
  dsimp only at htail
  split at htail
  · split at htail
    · cases htail
      simp
    · cases htail
  · split at htail
    · cases htail
      simp
    · cases htail
  · cases htail
    simp
  · cases htail
    simp

/-- Reading makes at most the three bytes of a last group more of its input than it has. -/
theorem length_le_of_decodeGroups (base : Nat) {input bytes : Bytes} (h : v.decodeGroups base input = .ok bytes) :
    bytes.length ≤ input.length + 3 := by
  fun_induction decodeGroups v base input generalizing bytes with
  | case1 base a b c d e rest ih =>
    obtain ⟨ns, -, h⟩ := exists_of_bind h
    split at h
    · obtain ⟨more, hm, h⟩ := exists_of_bind h
      cases h
      have := ih hm
      simp only [List.length_cons] at this ⊢
      omega
    · cases h
  | case2 base input =>
    have := length_le_of_decodeTail h
    omega

/-- Reading makes at most three bytes more than the text has. -/
theorem length_le_of_decode {text : String} {bytes : Bytes} (h : v.decode text = .ok bytes) :
    bytes.length ≤ (Bytes.ofText text).length + 3 := by
  rw [decode, decodeBytes] at h
  split at h
  · cases h
  · exact length_le_of_decodeGroups 0 h

/-- The text that is written for a byte string is read as that byte string. -/
theorem decode_encode (hv : v.IsLawful) (bytes : Bytes) : v.decode (v.encode bytes) = .ok bytes := by
  rw [decode, ofText_encode hv, decodeBytes_encodeBytes hv]

/-- Different byte strings are written differently. -/
theorem encode_injective (hv : v.IsLawful) {bytes other : Bytes} (h : v.encode bytes = v.encode other) : bytes = other := by
  have hread := decode_encode hv other
  rw [← h, decode_encode hv] at hread
  exact Except.ok.inj hread

end Variant

end SealedConfig.Base64
