import SealedConfig.Proofs.Cipher.Base64

/-!
# Only what is written in base 64 is read

Reading undoes writing in the other direction too: whatever group of symbols is read, its padding and its spare bits are those that
writing leaves, so a byte string has one spelling and every other text is refused.
-/

namespace SealedConfig.Base64.Variant

open Outcome RoundTripAux

variable {v : Variant}

/-! ## Symbols -/

/-- What is read as a value is the symbol of that value. -/
theorem symbol_of_value? {b : UInt8} {n : Nat} (h : v.value? b = some n) : n < 64 ∧ b = v.symbol n := by
  rw [value?] at h
  split at h
  · rename_i hb
    obtain rfl := Option.some.inj h
    have hle : 65 ≤ b.toNat ∧ b.toNat ≤ 90 := hb
    refine ⟨by omega, ?_⟩
    rw [symbol, if_pos (by omega), show 65 + (b.toNat - 65) = b.toNat by omega, UInt8.ofNat_toNat]
  split at h
  · rename_i hb
    obtain rfl := Option.some.inj h
    have hle : 97 ≤ b.toNat ∧ b.toNat ≤ 122 := hb
    refine ⟨by omega, ?_⟩
    rw [symbol, if_neg (by omega), if_pos (by omega), show 71 + (b.toNat - 71) = b.toNat by omega, UInt8.ofNat_toNat]
  split at h
  · rename_i hb
    obtain rfl := Option.some.inj h
    have hle : 48 ≤ b.toNat ∧ b.toNat ≤ 57 := hb
    refine ⟨by omega, ?_⟩
    rw [symbol, if_neg (by omega), if_neg (by omega), if_pos (by omega), show b.toNat + 4 - 4 = b.toNat by omega,
      UInt8.ofNat_toNat]
  split at h
  · rename_i hb
    obtain rfl := Option.some.inj h
    exact ⟨by decide, hb⟩
  split at h
  · rename_i hb
    obtain rfl := Option.some.inj h
    exact ⟨by decide, hb⟩
  · cases h

namespace CanonicalAux

/-- A group of symbols that is read spells its values. -/
theorem eq_symbols_of_values {offset : Nat} {input : Bytes} {ns : List Nat} (h : v.values offset input = .ok ns) :
    input = ns.map v.symbol ∧ ∀ n ∈ ns, n < 64 := by
  induction input generalizing offset ns with
  | nil =>
    obtain rfl := Except.ok.inj h
    exact ⟨rfl, nofun⟩
  | cons b input ih =>
    rw [values] at h
    split at h
    · cases h
    · rename_i n hvalue
      obtain ⟨hn, rfl⟩ := symbol_of_value? hvalue
      obtain ⟨ms, hms, rfl⟩ := exists_of_map h
      obtain ⟨rfl, hall⟩ := ih hms
      exact ⟨rfl, List.forall_mem_cons.mpr ⟨hn, hall⟩⟩

/-! ## The last group -/

/-- Behind padding only padding is read. -/
theorem eq_padding_of_scanTail {base place start : Nat} {tail tail' : Tail} {input : Bytes}
    (hstart : tail.paddingStart = some start) (h : v.scanTail base place tail input = .ok tail') :
    input = List.replicate input.length padding ∧ tail'.symbols = tail.symbols ∧ tail'.values = tail.values ∧
      tail'.paddingCount = tail.paddingCount + input.length := by
  induction input generalizing place tail start with
  | nil =>
    obtain rfl := Except.ok.inj h
    exact ⟨rfl, rfl, rfl, rfl⟩
  | cons b input ih =>
    rw [scanTail] at h
    split at h
    · rename_i hb
      split at h
      · cases h
      · obtain ⟨hinput, hsymbols, hvalues, hcount⟩ := ih rfl h
        refine ⟨?_, hsymbols, hvalues, ?_⟩
        · rw [List.length_cons, List.replicate_succ, ← hinput, hb]
        · dsimp only at hcount
          rw [hcount, List.length_cons]
          omega
    · rw [hstart] at h
      cases h

/-- A last group that is read is made of symbols and then of padding, which does not come before the third place. -/
theorem eq_group_of_scanTail {base place : Nat} {symbols : Bytes} {values : List Nat} {tail : Tail} {input : Bytes}
    (h : v.scanTail base place ⟨symbols, values, none, 0⟩ input = .ok tail) :
    ∃ ns count, input = ns.map v.symbol ++ List.replicate count padding ∧ (∀ n ∈ ns, n < 64) ∧
      tail.symbols = symbols ++ ns.map v.symbol ∧ tail.values = values ++ ns ∧ tail.paddingCount = count := by
  induction input generalizing place symbols values with
  | nil =>
    obtain rfl := Except.ok.inj h
    exact ⟨[], 0, rfl, nofun, by simp, by simp, rfl⟩
  | cons b input ih =>
    rw [scanTail] at h
    split at h
    · rename_i hb
      split at h
      · cases h
      · obtain ⟨hinput, hsymbols, hvalues, hcount⟩ := eq_padding_of_scanTail rfl h
        refine ⟨[], input.length + 1, ?_, nofun, by simpa using hsymbols, by simpa using hvalues, ?_⟩
        · rw [List.map_nil, List.nil_append, List.replicate_succ, ← hinput, hb]
        · dsimp only at hcount
          rw [hcount]
          omega
    · dsimp only at h
      split at h
      · cases h
      · rename_i n hvalue
        obtain ⟨hn, rfl⟩ := symbol_of_value? hvalue
        obtain ⟨ns, count, rfl, hall, hsymbols, hvalues, hcount⟩ := ih h
        refine ⟨n :: ns, count, rfl, List.forall_mem_cons.mpr ⟨hn, hall⟩, ?_, ?_, hcount⟩
        · rw [hsymbols, List.append_assoc]
          rfl
        · rw [hvalues, List.append_assoc]
          rfl

/-- Two symbols whose spare bits are zero are those of their byte. -/
theorem encodeBytes_one {a b : Nat} (ha : a < 64) (hb : b < 64) (hzero : (a * 64 + b) % 16 = 0) :
    v.encodeBytes [UInt8.ofNat ((a * 64 + b) / 16)] = [a, b].map v.symbol ++ v.fill 2 := by
  have hbyte : (UInt8.ofNat ((a * 64 + b) / 16)).toNat * 16 = a * 64 + b := by
    rw [UInt8.toNat_ofNat']
    omega
  rw [encodeBytes, hbyte, show (a * 64 + b) / 64 = a by omega, show (a * 64 + b) % 64 = b by omega]
  rfl

/-- Three symbols whose spare bits are zero are those of their two bytes. -/
theorem encodeBytes_two {a b c : Nat} (ha : a < 64) (hb : b < 64) (hc : c < 64) (hzero : ((a * 64 + b) * 64 + c) % 4 = 0) :
    v.encodeBytes [UInt8.ofNat (((a * 64 + b) * 64 + c) / 1024), UInt8.ofNat (((a * 64 + b) * 64 + c) / 4 % 256)] =
      [a, b, c].map v.symbol ++ v.fill 1 := by
  have hbytes : ((UInt8.ofNat (((a * 64 + b) * 64 + c) / 1024)).toNat * 256 +
      (UInt8.ofNat (((a * 64 + b) * 64 + c) / 4 % 256)).toNat) * 4 = (a * 64 + b) * 64 + c := by
    rw [UInt8.toNat_ofNat', UInt8.toNat_ofNat']
    omega
  rw [encodeBytes, hbytes, show ((a * 64 + b) * 64 + c) / 4096 = a by omega,
    show ((a * 64 + b) * 64 + c) / 64 % 64 = b by omega, show ((a * 64 + b) * 64 + c) % 64 = c by omega]
  rfl

/-- Four symbols are those of their three bytes, whatever follows. -/
theorem encodeBytes_three {a b c d : Nat} (ha : a < 64) (hb : b < 64) (hc : c < 64) (hd : d < 64) (rest : Bytes) :
    v.encodeBytes (groupBytes a b c d ++ rest) = [a, b, c, d].map v.symbol ++ v.encodeBytes rest := by
  have hbytes : ((UInt8.ofNat ((((a * 64 + b) * 64 + c) * 64 + d) / 65536)).toNat * 256 +
        (UInt8.ofNat ((((a * 64 + b) * 64 + c) * 64 + d) / 256 % 256)).toNat) * 256 +
      (UInt8.ofNat ((((a * 64 + b) * 64 + c) * 64 + d) % 256)).toNat = ((a * 64 + b) * 64 + c) * 64 + d := by
    rw [UInt8.toNat_ofNat', UInt8.toNat_ofNat', UInt8.toNat_ofNat']
    omega
  rw [groupBytes, List.cons_append, List.cons_append, List.cons_append, List.nil_append, encodeBytes, hbytes,
    show (((a * 64 + b) * 64 + c) * 64 + d) / 262144 = a by omega,
    show (((a * 64 + b) * 64 + c) * 64 + d) / 4096 % 64 = b by omega,
    show (((a * 64 + b) * 64 + c) * 64 + d) / 64 % 64 = c by omega,
    show (((a * 64 + b) * 64 + c) * 64 + d) % 64 = d by omega]
  rfl

/-- A last group that is read is empty, or has two to four symbols with the padding that is written behind so many. -/
theorem exists_of_decodeTail {base : Nat} {input bytes : Bytes} (hlen : input.length ≤ 4)
    (h : v.decodeTail base input = .ok bytes) :
    input = [] ∧ bytes = [] ∨
      ∃ ns symbols, (2 ≤ ns.length ∧ ns.length ≤ 4) ∧ (∀ n ∈ ns, n < 64) ∧ input = ns.map v.symbol ++ v.fill (4 - ns.length) ∧
        tailBytes base symbols ns = .ok bytes := by
  by_cases hempty : input = []
  · rw [hempty, decodeTail_nil] at h
    exact Or.inl ⟨hempty, (Except.ok.inj h).symm⟩
  obtain ⟨tail, hscan, hshort, hfilled, htail⟩ := exists_tail_of_decodeTail h
  obtain ⟨ns, count, hinput, hall, -, hvalues, hcount⟩ := eq_group_of_scanTail hscan
  rw [hvalues, List.nil_append] at hshort hfilled htail
  rw [hcount] at hfilled
  have hshort := hshort hempty
  have hlong : ns.length + count ≤ 4 := by
    rw [hinput, List.length_append, List.length_map, List.length_replicate] at hlen
    exact hlen
  have hpadding : List.replicate count padding = v.fill (4 - ns.length) := by
    unfold fill
    split at hfilled
    · rw [if_pos ‹_›, show count = 4 - ns.length by omega]
    · rw [if_neg ‹_›, hfilled, List.replicate_zero]
  exact Or.inr ⟨ns, tail.symbols, ⟨hshort, by omega⟩, hall, hpadding ▸ hinput, htail⟩

/-- The bytes of two to four symbols are written as these symbols and the padding behind so many. -/
theorem encodeBytes_of_tailBytes {base : Nat} {symbols bytes : Bytes} {ns : List Nat} (hlen : 2 ≤ ns.length ∧ ns.length ≤ 4)
    (hall : ∀ n ∈ ns, n < 64) (h : tailBytes base symbols ns = .ok bytes) :
    v.encodeBytes bytes = ns.map v.symbol ++ v.fill (4 - ns.length) := by
  obtain ⟨hshort, hlong⟩ := hlen
  rcases ns with _ | ⟨a, _ | ⟨b, _ | ⟨c, _ | ⟨d, _ | ⟨e, ns⟩⟩⟩⟩⟩
  case cons.cons.nil =>
    rw [tailBytes] at h
    simp only [List.forall_mem_cons] at hall
    split at h
    · rename_i hzero
      obtain rfl := Except.ok.inj h
      exact encodeBytes_one hall.1 hall.2.1 hzero
    · cases h
  case cons.cons.cons.nil =>
    rw [tailBytes] at h
    simp only [List.forall_mem_cons] at hall
    split at h
    · rename_i hzero
      obtain rfl := Except.ok.inj h
      exact encodeBytes_two hall.1 hall.2.1 hall.2.2.1 hzero
    · cases h
  case cons.cons.cons.cons.nil =>
    obtain rfl := Except.ok.inj h
    simp only [List.forall_mem_cons] at hall
    have hgroup := encodeBytes_three (v := v) hall.1 hall.2.1 hall.2.2.1 hall.2.2.2.1 []
    rw [List.append_nil] at hgroup
    exact hgroup.trans (congrArg _ fill_zero.symm)
  all_goals simp only [List.length_nil, List.length_cons] at hshort hlong; omega

/-- A last group that is read is what is written for its bytes. -/
theorem eq_encodeBytes_of_decodeTail {base : Nat} {input bytes : Bytes} (hlen : input.length ≤ 4)
    (h : v.decodeTail base input = .ok bytes) : input = v.encodeBytes bytes := by
  rcases exists_of_decodeTail hlen h with ⟨rfl, rfl⟩ | ⟨ns, symbols, hns, hall, rfl, htail⟩
  · rfl
  · exact (encodeBytes_of_tailBytes hns hall htail).symm

/-- Groups that are read are what is written for their bytes. -/
theorem eq_encodeBytes_of_decodeGroups {base : Nat} {input bytes : Bytes} (h : v.decodeGroups base input = .ok bytes) :
    input = v.encodeBytes bytes := by
  fun_induction decodeGroups v base input generalizing bytes with
  | case1 base a b c d e rest ih =>
    obtain ⟨ns, hvalues, h⟩ := exists_of_bind h
    obtain ⟨hinput, hall⟩ := eq_symbols_of_values hvalues
    split at h
    · rename_i w x y z
      obtain ⟨more, hmore, h⟩ := exists_of_bind h
      obtain rfl := Except.ok.inj h
      simp only [List.forall_mem_cons] at hall
      have hgroup := encodeBytes_three (v := v) hall.1 hall.2.1 hall.2.2.1 hall.2.2.2.1 more
      rw [← ih hmore, ← hinput] at hgroup
      exact hgroup.symm
    · cases h
  | case2 base input hshort =>
    refine eq_encodeBytes_of_decodeTail ?_ h
    rcases input with _ | ⟨a, _ | ⟨b, _ | ⟨c, _ | ⟨d, _ | ⟨e, input⟩⟩⟩⟩⟩
    case cons.cons.cons.cons.cons => exact absurd rfl (hshort a b c d e input)
    all_goals simp

end CanonicalAux

open CanonicalAux

/-- A text is read exactly when it is what is written for the byte string that it is read as. -/
theorem decode_eq_ok_iff (hv : v.IsLawful) {text : String} {bytes : Bytes} :
    v.decode text = .ok bytes ↔ text = v.encode bytes := by
  constructor
  · intro h
    rw [decode, decodeBytes] at h
    split at h
    · cases h
    · refine Bytes.ofText_injective ?_
      rw [ofText_encode hv, ← eq_encodeBytes_of_decodeGroups h]
  · rintro rfl
    exact decode_encode hv bytes

end SealedConfig.Base64.Variant
