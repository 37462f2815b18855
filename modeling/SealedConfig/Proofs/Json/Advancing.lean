import SealedConfig.Proofs.Json.Literal
import SealedConfig.Proofs.Json.Offset

/-!
# What a walk goes over

A walk moves over characters and, now and then, over a literal that it records; it makes no other moves, whatever the text. So all that
it records stands between quotes of the text, one literal behind the other, and everything that it reads leaves less of the text.
-/

namespace SealedConfig.Json.Span

open Outcome

variable {raw : String} {cursor mid behind : Cursor} {found found' found'' : Found} {taken rest : List Char}

/-! ## Where a walk stands -/

/-- A cursor stands in a text: what is in front of it is the rest of the text, and its offset is the number of bytes behind it. -/
def StandsIn (raw : String) (cursor : Cursor) : Prop := ∃ before, raw.toList = before ++ cursor.rest ∧ cursor.offset = utf8Length before

/-- A cursor that moves over characters in front of it still stands in the text. -/
theorem StandsIn.past (h : StandsIn raw cursor) (taken : List Char) (hrest : cursor.rest = taken ++ rest) :
    StandsIn raw (cursor.past taken rest) := by
  obtain ⟨before, htext, hoffset⟩ := h
  exact ⟨before ++ taken, by rw [htext, hrest, Cursor.past, List.append_assoc], by rw [Cursor.past, hoffset, utf8Length_append]⟩

theorem rest_eq_blanks (cursor : Cursor) : cursor.rest = cursor.rest.takeWhile isBlank ++ Json.skipBlanks cursor.rest :=
  List.takeWhile_append_dropWhile.symm

theorem StandsIn.skipBlanks (h : StandsIn raw cursor) : StandsIn raw cursor.skipBlanks := h.past _ (rest_eq_blanks cursor)

/-! ## The moves of a walk -/

/-- A walk from one cursor to another moves over characters, and over literals of which it records some. -/
inductive Advances : Cursor → Found → Cursor → Found → Prop where
  | refl (cursor : Cursor) (found : Found) : Advances cursor found cursor found
  | pass {cursor mid : Cursor} {found found' : Found} {rest : List Char} (taken : List Char) :
    Advances cursor found mid found' → mid.rest = taken ++ rest → Advances cursor found (mid.past taken rest) found'
  | record {cursor mid : Cursor} {found found' : Found} {inside rest : List Char} (path : KeyPath) :
    Advances cursor found mid found' → mid.rest = ('"' :: inside ++ ['"']) ++ rest →
      Advances cursor found (mid.past ('"' :: inside ++ ['"']) rest)
        ((path, ⟨mid.offset, (mid.past ('"' :: inside ++ ['"']) rest).offset⟩) :: found')

theorem Advances.trans (h : Advances cursor found mid found') (h' : Advances mid found' behind found'') :
    Advances cursor found behind found'' := by
  induction h' with
  | refl => exact h
  | pass taken _ hrest ih => exact .pass taken (ih h) hrest
  | record path _ hrest ih => exact .record path (ih h) hrest

theorem Advances.skipBlanks (h : Advances cursor found mid found') : Advances cursor found mid.skipBlanks found' :=
  h.pass _ (rest_eq_blanks mid)

/-- What is left does not grow. -/
theorem Advances.length_le (h : Advances cursor found behind found') : behind.rest.length ≤ cursor.rest.length := by
  induction h with
  | refl => exact Nat.le_refl _
  | pass _ _ hrest ih | record _ _ hrest ih =>
    rw [hrest, List.length_append] at ih
    exact Nat.le_trans (Nat.le_add_left _ _) ih

/-- A walk goes on in the text that it began in. -/
theorem Advances.standsIn (h : Advances cursor found behind found') (hstands : StandsIn raw cursor) : StandsIn raw behind := by
  induction h with
  | refl => exact hstands
  | pass _ _ hrest ih | record _ _ hrest ih => exact ih.past _ hrest

/-- A walk that goes over a character and on has advanced, and leaves less of the text. -/
theorem Advances.over {c : Char} (h : Advances cursor found mid found') (hc : mid.rest = c :: rest)
    (h' : Advances (mid.past [c] rest) found' behind found'') :
    Advances cursor found behind found'' ∧ behind.rest.length < cursor.rest.length := by
  refine ⟨(h.pass [c] hc).trans h', ?_⟩
  have hle := h.length_le
  have hle' := h'.length_le
  rw [hc, List.length_cons] at hle
  change behind.rest.length ≤ rest.length at hle'
  omega

/-! ## What is recorded on the way -/

/-- A span of a text from a quote up to a later one, both included. -/
def IsQuoted (raw : String) (span : Span) : Prop :=
  ∃ before inside after, raw.toList = before ++ ('"' :: inside ++ ['"']) ++ after ∧
    span = ⟨utf8Length before, utf8Length before + utf8Length inside + 2⟩

/-- What a walk has recorded when it stands at a cursor: literals of the text that end before the cursor, each behind those that were
recorded earlier. -/
structure Sound (raw : String) (cursor : Cursor) (found : Found) : Prop where
  stands : StandsIn raw cursor
  quoted : ∀ entry ∈ found, IsQuoted raw entry.2
  before : ∀ entry ∈ found, entry.2.stop ≤ cursor.offset
  apart : found.Pairwise fun later earlier => earlier.2.stop ≤ later.2.start

/-- Nothing is recorded yet. -/
theorem Sound.start (h : StandsIn raw cursor) : Sound raw cursor [] where
  stands := h
  quoted _ hentry := absurd hentry List.not_mem_nil
  before _ hentry := absurd hentry List.not_mem_nil
  apart := .nil

/-- A walk that goes over a literal and records it has recorded a literal of the text. -/
theorem Sound.record {inside : List Char} (h : Sound raw cursor found) (path : KeyPath)
    (hrest : cursor.rest = ('"' :: inside ++ ['"']) ++ rest) :
    Sound raw (cursor.past ('"' :: inside ++ ['"']) rest)
      ((path, ⟨cursor.offset, (cursor.past ('"' :: inside ++ ['"']) rest).offset⟩) :: found) := by
  have hoffset : (cursor.past ('"' :: inside ++ ['"']) rest).offset = cursor.offset + utf8Length inside + 2 := by
    simp only [Cursor.past, List.cons_append, utf8Length_cons, utf8Length_append, utf8Length_nil, show '"'.utf8Size = 1 from rfl]
    omega
  refine ⟨h.stands.past _ hrest, ?_, ?_, ?_⟩
  · refine List.forall_mem_cons.mpr ⟨?_, h.quoted⟩
    obtain ⟨before, htext, hbefore⟩ := h.stands
    exact ⟨before, inside, rest, by rw [htext, hrest, List.append_assoc before], by rw [hoffset, hbefore]⟩
  · refine List.forall_mem_cons.mpr ⟨Nat.le_refl _, fun entry hentry => ?_⟩
    have := h.before entry hentry
    omega
  · exact List.pairwise_cons.mpr ⟨h.before, h.apart⟩

/-- So a walk stays sound on its way. -/
theorem Sound.advance (h : Sound raw cursor found) (hadv : Advances cursor found behind found') : Sound raw behind found' := by
  induction hadv with
  | refl => exact h
  | pass taken _ hrest ih =>
    have hmid := ih h
    refine ⟨hmid.stands.past taken hrest, hmid.quoted, fun entry hentry => ?_, hmid.apart⟩
    exact Nat.le_trans (hmid.before entry hentry) (Nat.le_add_right _ _)
  | record path _ hrest ih => exact (ih h).record path hrest

/-! ## Every walk advances -/

/-- A literal ends at a quote behind its opening quote. -/
theorem exists_of_endOfString {offset : Nat} {text taken after : List Char} (h : endOfString offset text = .ok (taken, after)) :
    ∃ inside, taken = inside ++ ['"'] ∧ text = taken ++ after := by
  fun_induction endOfString offset text generalizing taken after with
  | case1 => cases h
  | case2 =>
    cases h
    exact ⟨[], rfl, rfl⟩
  | case3 => cases h
  | case4 _ c rest ih =>
    obtain ⟨⟨taken, after⟩, hread, heq⟩ := exists_of_map h
    cases heq
    obtain ⟨inside, rfl, rfl⟩ := ih hread
    exact ⟨'\\' :: c :: inside, rfl, rfl⟩
  | case5 _ c rest _ _ _ ih =>
    obtain ⟨⟨taken, after⟩, hread, heq⟩ := exists_of_map h
    cases heq
    obtain ⟨inside, rfl, rfl⟩ := ih hread
    exact ⟨c :: inside, rfl, rfl⟩

/-- A literal that is read is a part of the text from its opening quote to a quote behind it. -/
theorem exists_of_readLiteral {written : List Char} (h : readLiteral cursor rest = .ok (written, behind)) :
    ∃ inside after, written = '"' :: inside ++ ['"'] ∧ '"' :: rest = written ++ after ∧ behind = cursor.past written after := by
  obtain ⟨⟨taken, after⟩, hread, heq⟩ := exists_of_map h
  cases heq
  obtain ⟨inside, rfl, rfl⟩ := exists_of_endOfString hread
  exact ⟨inside, after, rfl, rfl, rfl⟩

/-- A walk that comes to an end has advanced over at least one character. -/
def Moves (walk : Cursor → Found → Except Stop (Cursor × Found)) : Prop := ∀ {cursor found behind found'},
  walk cursor found = .ok (behind, found') → Advances cursor found behind found' ∧ behind.rest.length < cursor.rest.length

/-- A walk that has come to a literal and goes over it has advanced, whether it records it or not, and leaves less of the text. -/
theorem Advances.overLiteral {written : List Char} (h : Advances cursor found mid found') (hquote : mid.rest = '"' :: rest)
    (hread : readLiteral mid rest = .ok (written, behind)) :
    Advances cursor found behind found' ∧ (∀ path, Advances cursor found behind ((path, ⟨mid.offset, behind.offset⟩) :: found')) ∧
      behind.rest.length < cursor.rest.length := by
  obtain ⟨inside, after, rfl, htext, rfl⟩ := exists_of_readLiteral hread
  refine ⟨h.pass _ (hquote.trans htext), fun path => h.record path (hquote.trans htext), ?_⟩
  have hle := h.length_le
  rw [hquote, htext] at hle
  simp only [List.length_append, List.length_cons] at hle
  change after.length < cursor.rest.length
  omega

/-- A walk that has come to a scalar and goes over it has advanced, and leaves less of the text. -/
theorem Advances.overScalar {c : Char} (h : Advances cursor found mid found') (hrest : mid.rest = c :: rest)
    (hc : endsScalar c = false) :
    Advances cursor found (mid.past ((c :: rest).takeWhile (!endsScalar ·)) ((c :: rest).dropWhile (!endsScalar ·))) found' ∧
      ((c :: rest).dropWhile (!endsScalar ·)).length < cursor.rest.length := by
  refine ⟨h.pass _ (hrest.trans List.takeWhile_append_dropWhile.symm), ?_⟩
  have hle := h.length_le
  rw [hrest, List.length_cons] at hle
  have hafter : ((c :: rest).dropWhile (!endsScalar ·)).length ≤ rest.length := by
    rw [List.dropWhile_cons_of_pos (by rw [hc]; rfl)]
    exact (List.dropWhile_suffix _).length_le
  exact Nat.lt_of_le_of_lt hafter hle

theorem moves_walkValue {room : Nat} (hmembers : ∀ path, Moves (walkMembers room path)) (hitems : Moves (walkItems room))
    (path : Option KeyPath) : Moves (walkValue (room + 1) path) := by
  intro cursor found behind found' h
  have hskip : Advances cursor found cursor.skipBlanks found := (Advances.refl cursor found).skipBlanks
  rw [walkValue] at h
  dsimp only at h
  generalize cursor.skipBlanks = here at h hskip
  split at h
  · cases h
  · -- an object
    rename_i rest hrest
    have hinside := (Advances.refl (here.past ['\x7b'] rest) found).skipBlanks
    split at h
    · rename_i after hafter
      cases h
      exact hskip.over hrest (hinside.pass ['\x7d'] hafter)
    · exact hskip.over hrest (hinside.trans (hmembers path h).1)
  · -- a list
    rename_i rest hrest
    have hinside := (Advances.refl (here.past ['['] rest) found).skipBlanks
    split at h
    · rename_i after hafter
      cases h
      exact hskip.over hrest (hinside.pass [']'] hafter)
    · exact hskip.over hrest (hinside.trans (hitems h).1)
  · -- a literal
    rename_i rest hrest
    split at h
    · cases h
    · rename_i written after hread
      obtain ⟨hpass, hrecord, hless⟩ := hskip.overLiteral hrest hread
      split at h
      · cases h
        exact ⟨hrecord _, hless⟩
      · cases h
        exact ⟨hpass, hless⟩
  · -- a scalar
    rename_i c rest _ _ _ hrest
    split at h
    · cases h
    · rename_i hc
      cases h
      exact hskip.overScalar hrest (Bool.eq_false_iff.mpr hc)

theorem moves_walkMembers {room : Nat} (hvalue : ∀ path, Moves (walkValue room path)) (hmembers : ∀ path, Moves (walkMembers room path))
    (path : Option KeyPath) : Moves (walkMembers (room + 1) path) := by
  intro cursor found behind found' h
  have hskip : Advances cursor found cursor.skipBlanks found := (Advances.refl cursor found).skipBlanks
  rw [walkMembers] at h
  dsimp only at h
  generalize cursor.skipBlanks = here at h hskip
  split at h
  · rename_i rest hrest
    split at h
    · cases h
    · rename_i written colon hread
      have hkey := (hskip.overLiteral hrest hread).1.skipBlanks
      split at h
      · cases h
      · split at h
        · rename_i rest' hcolon
          split at h
          · cases h
          · rename_i behind' found'' hread'
            have hpart := (hvalue _ hread').1
            have hnext := hpart.skipBlanks
            split at h
            · rename_i rest'' hcomma
              exact hkey.over hcolon ((hnext.pass [','] hcomma).trans (hmembers path h).1)
            · rename_i rest'' hbrace
              cases h
              exact hkey.over hcolon (hnext.pass ['\x7d'] hbrace)
            · cases h
        · cases h
  · cases h

theorem moves_walkItems {room : Nat} (hvalue : ∀ path, Moves (walkValue room path)) (hitems : Moves (walkItems room)) :
    Moves (walkItems (room + 1)) := by
  intro cursor found behind found' h
  rw [walkItems] at h
  split at h
  · cases h
  · rename_i behind' found'' hread
    have hpart := (hvalue _ hread).1
    have hnext := hpart.skipBlanks
    dsimp only at h
    split at h
    · rename_i rest hcomma
      exact hnext.over hcomma (hitems h).1
    · rename_i rest hbracket
      cases h
      exact hnext.over hbracket (.refl _ _)
    · cases h

/-- Every walk that comes to an end has advanced, however much room there was. -/
theorem moves_walk (room : Nat) :
    (∀ path, Moves (walkValue room path)) ∧ (∀ path, Moves (walkMembers room path)) ∧ Moves (walkItems room) := by
  induction room with
  | zero =>
    refine ⟨fun path _ _ _ _ h => ?_, fun path _ _ _ _ h => ?_, fun h => ?_⟩
    · rw [walkValue] at h
      cases h
    · rw [walkMembers] at h
      cases h
    · rw [walkItems] at h
      cases h
  | succ room ih =>
    obtain ⟨hvalue, hmembers, hitems⟩ := ih
    exact ⟨moves_walkValue hmembers hitems, moves_walkMembers hvalue hmembers, moves_walkItems hvalue hitems⟩

/-- All that the walk over a text records is sound. -/
theorem sound_of_walk {start : Nat} {text : List Char} (hstands : StandsIn raw ⟨start, text⟩) (h : walk start text = .ok found) :
    ∃ cursor, Sound raw cursor found := by
  rw [walk] at h
  split at h
  · cases h
  · rename_i cursor found' hread
    dsimp only at h
    split at h
    · cases h
      exact ⟨cursor, (Sound.start hstands).advance ((moves_walk _).1 _ hread).1⟩
    · cases h

end SealedConfig.Json.Span
