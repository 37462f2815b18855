import SealedConfig.Json.Span
import SealedConfig.Proofs.Outcome

/-!
# Spellings of numbers

What is read as a number is settled by the characters it is spelled with, as long as a character that ends scalars follows:
the same spelling in another text is read as the same number.
-/

namespace SealedConfig.Json

/-- What follows begins with a character that ends a scalar, or there is nothing more. -/
def Stops (rest : List Char) : Prop := ∀ c, rest.head? = some c → Span.endsScalar c = true

theorem stops_nil : Stops [] := nofun

theorem stops_cons {c : Char} (h : Span.endsScalar c = true) (rest : List Char) : Stops (c :: rest) := by
  intro d hd
  cases hd
  exact h

namespace Number

open Outcome

/-- Whether a character occurs in spellings of numbers. -/
def isNumeric (c : Char) : Bool := isDigit c || c == '.' || c == 'e' || c == 'E' || c == '+' || c == '-'

/-- No digit comes next. -/
def NoDigit (s : List Char) : Prop := ∀ c, s.head? = some c → isDigit c = false

namespace NumberAux

theorem isNumeric_of_isDigit {c : Char} (h : isDigit c = true) : isNumeric c = true := by simp [isNumeric, h]

/-- A character of a number ends no scalar. -/
theorem endsScalar_of_isNumeric {c : Char} (h : isNumeric c = true) : Span.endsScalar c = false := by
  cases hs : Span.endsScalar c with
  | false => rfl
  | true =>
    simp only [Span.endsScalar, isBlank, Bool.or_eq_true, beq_iff_eq] at hs
    rcases hs with ((rfl | rfl) | rfl) | ((rfl | rfl) | rfl) | rfl <;> exact absurd h (by decide)

/-- What ends a scalar begins with no character of a number. -/
theorem not_isNumeric_of_stops {rest : List Char} (h : Stops rest) {c : Char} (hc : rest.head? = some c) :
    isNumeric c = false := by
  cases hn : isNumeric c with
  | false => rfl
  | true =>
    have hs := h c hc
    rw [endsScalar_of_isNumeric hn] at hs
    exact absurd hs (by decide)

theorem noDigit_of_stops {rest : List Char} (h : Stops rest) : NoDigit rest := by
  intro c hc
  cases hd : isDigit c with
  | false => rfl
  | true =>
    have hn := not_isNumeric_of_stops h hc
    rw [isNumeric_of_isDigit hd] at hn
    exact absurd hn (by decide)

/-- Past the digits of a text, no digit comes next. -/
theorem noDigit_dropWhile (s : List Char) : NoDigit (s.dropWhile isDigit) := by
  intro c hc
  have := List.head?_dropWhile_not isDigit s
  rw [hc] at this
  simpa using this

/-- Whether a digit comes next in a text does not change when what follows its spelling does. -/
theorem noDigit_append {spelling after rest : List Char} (h : NoDigit (spelling ++ after)) (hr : Stops rest) :
    NoDigit (spelling ++ rest) := by
  cases spelling with
  | nil => exact noDigit_of_stops hr
  | cons c cs => exact fun d hd => h d hd

/-- The digits in front of a text that begins with none. -/
theorem takeWhile_digits {ds s : List Char} (hd : ∀ c ∈ ds, isDigit c = true) (hs : NoDigit s) :
    (ds ++ s).takeWhile isDigit = ds ∧ (ds ++ s).dropWhile isDigit = s := by
  rw [List.takeWhile_append_of_pos hd, List.dropWhile_append_of_pos hd]
  cases s with
  | nil => simp
  | cons c cs => simp [hs c rfl]

/-- Every digit taken from the front of a text is one. -/
theorem isDigit_of_mem_takeWhile {s : List Char} {c : Char} (h : c ∈ s.takeWhile isDigit) : isDigit c = true :=
  List.all_eq_true.mp List.all_takeWhile c h

end NumberAux

open NumberAux

/-- A reader passes from a text to what follows a spelling in it, and does so whatever follows that spelling. -/
def Passes (reader : List Char → Except Fault (List Char)) (s after : List Char) : Prop :=
  ∃ spelling, s = spelling ++ after ∧ (∀ c ∈ spelling, isNumeric c = true) ∧
    ∀ rest, Stops rest → reader (spelling ++ rest) = .ok rest

/-! ## Exponents -/

/-- The digits of an exponent within the limit are all digits there are. -/
theorem takeExponent_some {value v : Nat} {s after : List Char} (h : takeExponent value s = (some v, after)) :
    ∃ ds, s = ds ++ after ∧ (∀ c ∈ ds, isDigit c = true) ∧ NoDigit after ∧
      ∀ rest, NoDigit rest → takeExponent value (ds ++ rest) = (some v, rest) := by
  induction s generalizing value with
  | nil =>
    simp only [takeExponent, Prod.mk.injEq, Option.some.injEq] at h
    obtain ⟨rfl, rfl⟩ := h
    refine ⟨[], rfl, nofun, nofun, fun rest hr => ?_⟩
    cases rest with
    | nil => rfl
    | cons c rest => simp [takeExponent, hr c rfl]
  | cons c s ih =>
    rw [takeExponent] at h
    by_cases hd : isDigit c = true
    · by_cases hl : value * 10 + digitValue c > exponentLimit
      · simp [hd, hl] at h
      · rw [if_pos hd, if_neg hl] at h
        obtain ⟨ds, rfl, hds, ha, hrest⟩ := ih h
        refine ⟨c :: ds, rfl, by simpa [hd] using hds, ha, fun rest hr => ?_⟩
        rw [List.cons_append, takeExponent, if_pos hd, if_neg hl]
        exact hrest rest hr
    · rw [if_neg hd] at h
      simp only [Prod.mk.injEq, Option.some.injEq] at h
      obtain ⟨rfl, rfl⟩ := h
      refine ⟨[], rfl, nofun, fun d h => ?_, fun rest hr => ?_⟩
      · cases h
        simpa using hd
      cases rest with
      | nil => rfl
      | cons c rest => simp [takeExponent, hr c rfl]

/-- The digits of an exponent beyond the limit are read up to the one with which it passes the limit. -/
theorem takeExponent_none {value : Nat} {s after : List Char} (h : takeExponent value s = (none, after)) :
    ∃ d ds, s = d :: ds ++ after ∧ (∀ c ∈ d :: ds, isDigit c = true) ∧
      ∀ rest, takeExponent value (d :: ds ++ rest) = (none, rest) := by
  induction s generalizing value with
  | nil => cases h
  | cons c s ih =>
    rw [takeExponent] at h
    by_cases hd : isDigit c = true
    · by_cases hl : value * 10 + digitValue c > exponentLimit
      · simp only [hd, hl, if_true, Prod.mk.injEq, true_and] at h
        subst h
        exact ⟨c, [], rfl, by simpa using hd, fun rest => by simp [takeExponent, hd, hl]⟩
      · rw [if_pos hd, if_neg hl] at h
        obtain ⟨d, ds, rfl, hds, hrest⟩ := ih h
        refine ⟨c, d :: ds, rfl, by simpa [hd] using hds, fun rest => ?_⟩
        rw [List.cons_append, takeExponent, if_pos hd, if_neg hl]
        exact hrest rest
    · simp [hd] at h

/-- An exponent that begins with a digit, by how far its digits go. -/
theorem readPower_cons {c : Char} (hc : isDigit c = true) (negative : Bool) (significand : Nat) (start : Int)
    (s : List Char) :
    readPower negative significand start (c :: s) =
      match takeExponent 0 (c :: s) with
      | (some value, rest) =>
        if overflows significand (if negative then start - value else start + value) then
          .error (Fault.before .numberRange rest)
        else .ok rest
      | (none, rest) =>
        if significand ≠ 0 ∧ ¬negative then .error (Fault.before .numberRange rest)
        else .ok (rest.dropWhile isDigit) := by
  rw [readPower]
  exact if_pos hc

section

variable {negative : Bool} {significand : Nat} {start : Int} {s tail after : List Char} {c : Char}

/-- An exponent within the limit is passed: all its digits are read, and none follows. -/
theorem passes_readPower_of_some {value : Nat} (hc : isDigit c = true) (htake : takeExponent 0 (c :: s) = (some value, tail))
    (h : readPower negative significand start (c :: s) = .ok after) : Passes (readPower negative significand start) (c :: s) after := by
  obtain ⟨ds, hs, hds, htail, hrest⟩ := takeExponent_some htake
  rw [readPower_cons hc, htake] at h
  dsimp only at h
  by_cases hfits : overflows significand (if negative = true then start - value else start + value) = true
  · rw [if_pos hfits] at h
    cases h
  · rw [if_neg hfits] at h
    obtain rfl := Except.ok.inj h
    refine ⟨ds, hs, fun d hd => isNumeric_of_isDigit (hds d hd), fun rest hstops => ?_⟩
    cases ds with
    | nil =>
      rw [htail c (by rw [← List.nil_append tail, ← hs]; rfl)] at hc
      cases hc
    | cons d ds =>
      rw [List.cons_append, readPower_cons (hds d List.mem_cons_self), ← List.cons_append, hrest rest (noDigit_of_stops hstops)]
      exact if_neg hfits

/-- An exponent beyond the limit is passed where it does not matter: its digits are read up to the limit, and the others skipped. -/
theorem passes_readPower_of_none (hc : isDigit c = true) (htake : takeExponent 0 (c :: s) = (none, tail))
    (h : readPower negative significand start (c :: s) = .ok after) : Passes (readPower negative significand start) (c :: s) after := by
  obtain ⟨d, ds, hs, hds, hrest⟩ := takeExponent_none htake
  rw [readPower_cons hc, htake] at h
  dsimp only at h
  split at h
  · cases h
  · rename_i hharmless
    obtain rfl := Except.ok.inj h
    refine ⟨d :: ds ++ tail.takeWhile isDigit, by rw [hs]; simp, fun x hx => ?_, fun rest hstops => ?_⟩
    · rcases List.mem_append.mp hx with hx | hx
      · exact isNumeric_of_isDigit (hds x hx)
      · exact isNumeric_of_isDigit (isDigit_of_mem_takeWhile hx)
    · have hdrop := (takeWhile_digits (s := rest) (fun x => isDigit_of_mem_takeWhile (s := tail) (c := x))
        (noDigit_of_stops hstops)).2
      rw [List.append_assoc, List.cons_append, readPower_cons (hds d List.mem_cons_self), ← List.cons_append, hrest]
      dsimp only
      rw [if_neg hharmless, hdrop]

/-- The digits of an exponent are passed whatever follows them. -/
theorem passes_readPower (h : readPower negative significand start s = .ok after) :
    Passes (readPower negative significand start) s after := by
  cases s with
  | nil => cases h
  | cons c s =>
    by_cases hc : isDigit c = true
    · rcases htake : takeExponent 0 (c :: s) with ⟨value | value, tail⟩
      · exact passes_readPower_of_none hc htake h
      · exact passes_readPower_of_some hc htake h
    · simp [readPower, hc] at h

end

/-- An exponent is passed whatever follows it. -/
theorem passes_readExponent {significand : Nat} {start : Int} {s after : List Char}
    (h : readExponent significand start s = .ok after) : Passes (readExponent significand start) s after := by
  unfold readExponent at h
  split at h
  · obtain ⟨spelling, rfl, hsp, hrest⟩ := passes_readPower h
    exact ⟨'+' :: spelling, rfl, by simpa [isNumeric] using hsp, hrest⟩
  · obtain ⟨spelling, rfl, hsp, hrest⟩ := passes_readPower h
    exact ⟨'-' :: spelling, rfl, by simpa [isNumeric] using hsp, hrest⟩
  · rename_i hplus hminus
    obtain ⟨spelling, rfl, hsp, hrest⟩ := passes_readPower h
    refine ⟨spelling, rfl, hsp, fun rest hr => ?_⟩
    cases spelling with
    | nil =>
      have := hrest [] stops_nil
      simp [readPower] at this
    | cons c spelling =>
      rw [List.cons_append, readExponent]
      · exact hrest rest hr
      · intro tail ht
        cases ht
        exact hplus _ rfl
      · intro tail ht
        cases ht
        exact hminus _ rfl

/-- What may follow the digits of a number is passed whatever follows it. -/
theorem passes_readScale {significand : Nat} {exponent : Int} {s after : List Char}
    (h : readScale significand exponent s = .ok after) : Passes (readScale significand exponent) s after := by
  unfold readScale at h
  split at h
  · obtain ⟨spelling, rfl, hsp, hrest⟩ := passes_readExponent h
    exact ⟨'e' :: spelling, rfl, by simpa [isNumeric] using hsp, hrest⟩
  · obtain ⟨spelling, rfl, hsp, hrest⟩ := passes_readExponent h
    exact ⟨'E' :: spelling, rfl, by simpa [isNumeric] using hsp, hrest⟩
  · split at h
    · cases h
    · rename_i ho
      cases h
      refine ⟨[], rfl, nofun, fun rest hr => ?_⟩
      have hn : ∀ c, isNumeric c = true → ∀ tail, rest = c :: tail → False := by
        rintro c hc tail rfl
        have := not_isNumeric_of_stops hr (c := c) rfl
        rw [hc] at this
        cases this
      rw [List.nil_append, readScale, if_neg ho]
      · exact fun tail ht => hn 'e' (by decide) tail ht
      · exact fun tail ht => hn 'E' (by decide) tail ht

/-- The digits behind a point and what may follow them are passed whatever follows. -/
theorem passes_readFraction {significand : Nat} {exponent : Int} {s after : List Char}
    (h : readFraction significand exponent s = .ok after) : Passes (readFraction significand exponent) s after := by
  by_cases hds : s.takeWhile isDigit = []
  · simp only [readFraction, hds, if_true] at h
    split at h <;> cases h
  simp only [readFraction, if_neg hds] at h
  obtain ⟨spelling, hs, hsp, hrest⟩ := passes_readScale h
  have hd : ∀ c ∈ s.takeWhile isDigit, isDigit c = true := fun c => isDigit_of_mem_takeWhile
  refine ⟨s.takeWhile isDigit ++ spelling, ?_, fun c hc => ?_, fun rest hr => ?_⟩
  · rw [List.append_assoc, ← hs, List.takeWhile_append_dropWhile]
  · rcases List.mem_append.mp hc with hc | hc
    · exact isNumeric_of_isDigit (hd c hc)
    · exact hsp c hc
  · have hn : NoDigit (spelling ++ rest) := noDigit_append (hs ▸ noDigit_dropWhile s) hr
    obtain ⟨h1, h2⟩ := takeWhile_digits hd hn
    rw [List.append_assoc]
    simp only [readFraction, h1, h2, if_neg hds]
    exact hrest rest hr

/-! ## Whole numbers -/

namespace NumberAux

/-- What of a text its spelling is, seen from what follows it. -/
theorem take_spelling (spelling rest : List Char) :
    (spelling ++ rest).take ((spelling ++ rest).length - rest.length) = spelling := by
  rw [List.length_append, Nat.add_sub_cancel, List.take_left]

/-- What ends a scalar begins with no point and no letter of an exponent. -/
theorem stops_ne_cons {rest : List Char} (h : Stops rest) {c : Char} (hc : isNumeric c = true) (tail : List Char) :
    rest ≠ c :: tail := by
  rintro rfl
  have hn := not_isNumeric_of_stops h (c := c) rfl
  rw [hc] at hn
  cases hn

end NumberAux

/-- A number with a fraction or an exponent, whose reader passes the characters behind a first one. -/
theorem finish_of_passes {negative : Bool} {digits tail after : List Char} {c : Char} {n : Number}
    {reader : List Char → Except Fault (List Char)} (hc : isNumeric c = true)
    (hf : ∀ s, finish negative digits (c :: s) = (reader s).map fun after =>
      (.decimal (String.ofList ((if negative then ['-'] else []) ++ digits ++
        (c :: s).take ((c :: s).length - after.length))), after))
    (hp : ∀ after, reader tail = .ok after → Passes reader tail after)
    (h : finish negative digits (c :: tail) = .ok (n, after)) :
    ∃ spelling, c :: tail = spelling ++ after ∧ (∀ c ∈ spelling, isNumeric c = true) ∧
      ∀ rest, Stops rest → finish negative digits (spelling ++ rest) = .ok (n, rest) := by
  rw [hf] at h
  obtain ⟨after', hr, hn⟩ := exists_of_map h
  simp only [Prod.mk.injEq] at hn
  obtain ⟨rfl, rfl⟩ := hn
  obtain ⟨spelling, rfl, hsp, hrest⟩ := hp _ hr
  refine ⟨c :: spelling, rfl, by simpa [hc] using hsp, fun rest hrs => ?_⟩
  rw [List.cons_append, hf, hrest rest hrs, ok_map, ← List.cons_append, take_spelling, ← List.cons_append,
    take_spelling]

/-- What a number of whole digits alone is, unless it is too large. -/
def whole? (negative : Bool) (digits : List Char) : Option Number :=
  let (significand, left) := takeUp 0 digits
  let spelled : Number := .decimal (String.ofList ((if negative then ['-'] else []) ++ digits))
  if left > 0 then if overflows significand left then none else some spelled
  else if negative then
    if significand = 0 ∨ 1 <<< 63 < significand then some spelled else some (.integer (-(significand : Int)))
  else some (.integer significand)

/-- A number whose digits no point and no letter of an exponent follows is its whole digits. -/
theorem finish_whole {negative : Bool} {digits s : List Char} (h : ∀ c tail, s = c :: tail → c ≠ '.' ∧ c ≠ 'e' ∧ c ≠ 'E') :
    finish negative digits s =
      match whole? negative digits with
      | some n => .ok (n, s)
      | none => .error (Fault.before .numberRange s) := by
  have hdot : ∀ tail, s = '.' :: tail → False := fun tail hs => (h _ _ hs).1 rfl
  have he : ∀ tail, s = 'e' :: tail → False := fun tail hs => (h _ _ hs).2.1 rfl
  have hE : ∀ tail, s = 'E' :: tail → False := fun tail hs => (h _ _ hs).2.2 rfl
  cases ht : takeUp 0 digits with
  | mk significand left =>
    -- the three facts above rule out the readings with a point or an exponent
    simp only [finish, whole?, ht, Nat.sub_self, List.take_zero, List.append_nil]
    by_cases hl : left > 0
    · rw [if_pos hl, if_pos hl]
      split <;> rfl
    · rw [if_neg hl, if_neg hl]
      cases negative with
      | true => by_cases hs : significand = 0 ∨ 1 <<< 63 < significand <;> simp only [if_true, hs, if_false]
      | false => rfl

/-- Past its whole digits a number is read the same whatever follows its spelling. -/
theorem exists_of_finish {negative : Bool} {digits s after : List Char} {n : Number}
    (h : finish negative digits s = .ok (n, after)) :
    ∃ spelling, s = spelling ++ after ∧ (∀ c ∈ spelling, isNumeric c = true) ∧
      ∀ rest, Stops rest → finish negative digits (spelling ++ rest) = .ok (n, rest) := by
  by_cases hdot : ∃ tail, s = '.' :: tail
  · obtain ⟨tail, rfl⟩ := hdot
    exact finish_of_passes (by decide) (fun _ => rfl) (fun _ => passes_readFraction) h
  by_cases he : ∃ tail, s = 'e' :: tail
  · obtain ⟨tail, rfl⟩ := he
    exact finish_of_passes (by decide) (fun _ => rfl) (fun _ => passes_readExponent) h
  by_cases hE : ∃ tail, s = 'E' :: tail
  · obtain ⟨tail, rfl⟩ := hE
    exact finish_of_passes (by decide) (fun _ => rfl) (fun _ => passes_readExponent) h
  rw [finish_whole fun c tail hs =>
    ⟨fun hc => hdot ⟨tail, hc ▸ hs⟩, fun hc => he ⟨tail, hc ▸ hs⟩, fun hc => hE ⟨tail, hc ▸ hs⟩⟩] at h
  cases hw : whole? negative digits with
  | none => rw [hw] at h; cases h
  | some m =>
    rw [hw] at h
    cases h
    refine ⟨[], rfl, nofun, fun rest hr => ?_⟩
    rw [List.nil_append, finish_whole, hw]
    intro c tail hs
    refine ⟨?_, ?_, ?_⟩ <;> rintro rfl <;> exact stops_ne_cons hr (by decide) tail hs

/-- A first digit that no further digit follows is read like the digits of a number. -/
theorem read_zero {negative : Bool} {s : List Char} (h : NoDigit s) : read negative ('0' :: s) = finish negative ['0'] s := by
  cases s with
  | nil => rfl
  | cons c s => simp [read, h c rfl]

/-- A number that does not begin with zero is read with all its digits. -/
theorem read_digits {negative : Bool} {c : Char} {s : List Char} (h0 : c ≠ '0') (hc : isDigit c = true) :
    read negative (c :: s) = finish negative (c :: s.takeWhile isDigit) (s.dropWhile isDigit) := by
  rw [read, if_pos hc]
  exact fun h => h0 h

/-- A number is read the same from its spelling whatever ends it. -/
theorem exists_of_read {negative : Bool} {s after : List Char} {n : Number} (h : read negative s = .ok (n, after)) :
    ∃ spelling, s = spelling ++ after ∧ spelling ≠ [] ∧ (∀ c ∈ spelling, isNumeric c = true) ∧
      ∀ rest, Stops rest → read negative (spelling ++ rest) = .ok (n, rest) := by
  rcases s with _ | ⟨c, s⟩
  · cases h
  by_cases h0 : c = '0'
  · subst h0
    have hd : NoDigit s := by
      intro d hd
      rcases s with _ | ⟨d', s⟩
      · cases hd
      cases hd
      cases hdd : isDigit d with
      | false => rfl
      | true => simp [read, hdd] at h
    rw [read_zero hd] at h
    obtain ⟨spelling, rfl, hsp, hrest⟩ := exists_of_finish h
    refine ⟨'0' :: spelling, rfl, nofun, by simpa using ⟨(by decide : isNumeric '0' = true), hsp⟩, fun rest hr => ?_⟩
    rw [List.cons_append, read_zero (noDigit_append hd hr)]
    exact hrest rest hr
  by_cases hc : isDigit c = true
  · rw [read_digits h0 hc] at h
    obtain ⟨spelling, hs, hsp, hrest⟩ := exists_of_finish h
    have hds : ∀ d ∈ s.takeWhile isDigit, isDigit d = true := fun d => isDigit_of_mem_takeWhile
    refine ⟨c :: s.takeWhile isDigit ++ spelling, ?_, nofun, fun d hd => ?_, fun rest hr => ?_⟩
    · rw [List.append_assoc, ← hs, List.cons_append, List.takeWhile_append_dropWhile]
    · rcases List.mem_append.mp hd with hd | hd
      · rcases List.mem_cons.mp hd with rfl | hd
        · exact isNumeric_of_isDigit hc
        · exact isNumeric_of_isDigit (hds d hd)
      · exact hsp d hd
    · obtain ⟨h1, h2⟩ := takeWhile_digits hds (noDigit_append (hs ▸ noDigit_dropWhile s) hr)
      rw [List.append_assoc, List.cons_append, read_digits h0 hc, h1, h2]
      exact hrest rest hr
  · rw [read] at h
    · simp [hc] at h
    · exact fun h => h0 h

end Number

end SealedConfig.Json
