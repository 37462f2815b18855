import SealedConfig.Proofs.Json.Atom
import SealedConfig.Proofs.Json.Bytewise

/-!
# The two walks agree

A walk over the bytes of a text does what the walk over its characters does, step by step: it finds the same literals, or stops at the
same byte for the same reason. It never cuts a character, and room for two steps per character and one more is enough for it.
-/

namespace SealedConfig.Json.Span

open Bytewise (Halt peek skip literalEnd lead lead_eq_iff)

/-- How a walk over characters ends, told in bytes. -/
def told : Except Stop (Cursor × Found) → Except Halt (Nat × Found)
  | .error stop => .error (.stop stop)
  | .ok (cursor, found) => .ok (cursor.offset, found)

/-- A walk over bytes does what a walk over characters does, from every cursor in the text on for which both have room enough. -/
def Agrees (raw : String) (slack room room' : Nat) (bytewise : Nat → Found → Except Halt (Nat × Found))
    (walk : Cursor → Found → Except Stop (Cursor × Found)) : Prop :=
  ∀ {cursor found}, StandsIn raw cursor → 2 * cursor.rest.length + slack ≤ room → 2 * cursor.rest.length + slack ≤ room' →
    bytewise cursor.offset found = told (walk cursor found)

def ValuesAgree (raw : String) (room : Nat) : Prop :=
  ∀ path room', Agrees raw 1 room room' (Bytewise.value raw room path) (walkValue room' path)

def MembersAgree (raw : String) (room : Nat) : Prop :=
  ∀ path room', Agrees raw 1 room room' (Bytewise.members raw room path) (walkMembers room' path)

-- items take a step of their own before the first of them is walked as a value
def ItemsAgree (raw : String) (room : Nat) : Prop :=
  ∀ room', Agrees raw 2 room room' (Bytewise.items raw room) (walkItems room')

variable {raw : String} {room room' : Nat} {cursor : Cursor} {path : Option KeyPath} {found : Found}

/-- An ASCII character takes one byte. -/
theorem utf8Length_singleton {c : Char} (h : c.toNat < 0x80) : utf8Length [c] = 1 := by
  rw [← Bytewise.length_encode, Bytewise.encode, List.flatMap_singleton, Bytewise.utf8EncodeChar_of_lt h, List.length_singleton]

theorem skipBlanks_length_le (cursor : Cursor) : cursor.skipBlanks.rest.length ≤ cursor.rest.length :=
  (List.dropWhile_suffix _).length_le

/-! ## What both walks see -/

/-- A choice by the byte at a cursor is one by the character in front of it. -/
theorem StandsIn.ite_peek {α : Type} (h : StandsIn raw cursor) {d : Char} (hd : d.toNat < 0x80) {yes no result : α}
    (hyes : ∀ rest, cursor.rest = d :: rest → yes = result) (hno : (∀ rest, cursor.rest ≠ d :: rest) → no = result) :
    (if peek raw cursor.offset = some d then yes else no) = result := by
  by_cases hfront : ∃ rest, cursor.rest = d :: rest
  · obtain ⟨rest, hrest⟩ := hfront
    rw [if_pos ((h.peek_eq_some_iff hd).mpr ⟨rest, hrest⟩), hyes rest hrest]
  · rw [if_neg (mt (h.peek_eq_some_iff hd).mp hfront), hno (not_exists.mp hfront)]

/-- A literal ends at the same byte for both walks. -/
theorem StandsIn.literalEnd_eq {offset : Nat} {rest : List Char} (h : StandsIn raw ⟨offset, '"' :: rest⟩) :
    literalEnd raw (offset + 1) = (readLiteral ⟨offset, '"' :: rest⟩ rest).map fun (_, behind) => behind.offset := by
  have hinside : StandsIn raw ⟨offset + 1, rest⟩ := h.past ['"'] rfl
  rw [hinside.literalEnd_eq_map, readLiteral]
  cases endOfString (offset + 1) rest with
  | error => rfl
  | ok found =>
    simp only [Except.map, Cursor.past, utf8Length_cons, Except.ok.injEq, show '"'.utf8Size = 1 from rfl]
    omega

/-- What a cursor goes over can be cut out of the text. -/
theorem StandsIn.slice?_past (h : StandsIn raw cursor) {taken rest : List Char} (hrest : cursor.rest = taken ++ rest) :
    slice? raw.toList ⟨cursor.offset, (cursor.past taken rest).offset⟩ = some taken := by
  obtain ⟨before, htext, hoffset⟩ := h
  rw [htext, hrest, ← List.append_assoc, Cursor.past, hoffset]
  exact slice?_covering before taken rest

/-! ## Brackets and commas -/

section

variable {slack : Nat} {bytewise : Nat → Found → Except Halt (Nat × Found)} {walk : Cursor → Found → Except Stop (Cursor × Found)}
  {closing : Char} {reason : Reason} {result : Except Stop (Cursor × Found)}

/-- Behind an opening bracket the walks end at the closing one or go on, at the same byte. -/
theorem Agrees.inside (h : Agrees raw slack room room' bytewise walk) (hclosing : closing.toNat < 0x80) (hstands : StandsIn raw cursor)
    (hroom : 2 * cursor.rest.length + slack ≤ room) (hroom' : 2 * cursor.rest.length + slack ≤ room')
    (hclose : ∀ rest, cursor.skipBlanks.rest = closing :: rest → result = .ok (cursor.skipBlanks.past [closing] rest, found))
    (hmore : (∀ rest, cursor.skipBlanks.rest ≠ closing :: rest) → result = walk cursor.skipBlanks found) :
    (if peek raw cursor.skipBlanks.offset = some closing then .ok (cursor.skipBlanks.offset + 1, found)
      else bytewise cursor.skipBlanks.offset found) = told result := by
  have hlength := skipBlanks_length_le cursor
  refine hstands.skipBlanks.ite_peek hclosing (fun rest hrest => ?_) fun hother => ?_
  · rw [hclose rest hrest, told, Cursor.past, utf8Length_singleton hclosing]
  · rw [hmore hother]
    exact h hstands.skipBlanks (by omega) (by omega)

/-- Behind a part the walks go on at a comma, end at the closing bracket, or fail, at the same byte. -/
theorem Agrees.next (h : Agrees raw slack room room' bytewise walk) (hclosing : closing.toNat < 0x80) (hstands : StandsIn raw cursor)
    (hroom : 2 * cursor.rest.length + slack ≤ room + 2) (hroom' : 2 * cursor.rest.length + slack ≤ room' + 2)
    (hcomma : ∀ rest, cursor.skipBlanks.rest = ',' :: rest → result = walk (cursor.skipBlanks.past [','] rest) found)
    (hclose : ∀ rest, cursor.skipBlanks.rest = closing :: rest → result = .ok (cursor.skipBlanks.past [closing] rest, found))
    (hother : (∀ rest, cursor.skipBlanks.rest ≠ ',' :: rest) → (∀ rest, cursor.skipBlanks.rest ≠ closing :: rest) →
      result = .error ⟨cursor.skipBlanks.offset, reason⟩) :
    (if peek raw cursor.skipBlanks.offset = some ',' then bytewise (cursor.skipBlanks.offset + 1) found
      else if peek raw cursor.skipBlanks.offset = some closing then .ok (cursor.skipBlanks.offset + 1, found)
      else .error (.stop ⟨cursor.skipBlanks.offset, reason⟩)) = told result := by
  have hlength := skipBlanks_length_le cursor
  have hnext := hstands.skipBlanks
  refine hnext.ite_peek (by decide) (fun rest hrest => ?_) fun hnone =>
    hnext.ite_peek hclosing (fun rest hrest => ?_) fun hnone' => ?_
  · have hshorter : (cursor.skipBlanks.past [','] rest).rest.length + 1 ≤ cursor.rest.length := by
      rw [hrest] at hlength
      exact hlength
    rw [hcomma rest hrest]
    exact h (hnext.past [','] hrest) (by omega) (by omega)
  · rw [hclose rest hrest, told, Cursor.past, utf8Length_singleton hclosing]
  · rw [hother hnone hnone']
    rfl

end

/-! ## Values -/

/-- At a character that begins no other value stands a scalar, or nothing when the character ends one. -/
theorem walkValue_other {offset : Nat} {c : Char} {rest : List Char} (h : cursor.skipBlanks = ⟨offset, c :: rest⟩)
    (hbrace : c ≠ '\x7b') (hbracket : c ≠ '[') (hquote : c ≠ '"') :
    walkValue (room + 1) path cursor found =
      if endsScalar c then .error ⟨offset, .expectedValue⟩
      else
        .ok (Cursor.past ⟨offset, c :: rest⟩ ((c :: rest).takeWhile (!endsScalar ·)) ((c :: rest).dropWhile (!endsScalar ·)), found) := by
  rw [walkValue, h]
  dsimp only
  split <;> rename_i heq <;> cases heq
  · exact absurd rfl hbrace
  · exact absurd rfl hbracket
  · exact absurd rfl hquote
  · rfl

theorem valuesAgree_succ (hmembers : MembersAgree raw room) (hitems : ItemsAgree raw room) : ValuesAgree raw (room + 1) := by
  intro path room' cursor found hstands hroom hroom'
  obtain ⟨room', rfl⟩ : ∃ r, room' = r + 1 := ⟨room' - 1, by omega⟩
  have hlength := skipBlanks_length_le cursor
  have hhere := hstands.skipBlanks
  obtain ⟨offset, rest, hskip⟩ : ∃ offset rest, cursor.skipBlanks = ⟨offset, rest⟩ := ⟨_, _, rfl⟩
  rw [Bytewise.value, hstands.skip_isBlank]
  rw [hskip] at hhere hlength ⊢
  cases rest with
  | nil =>
    rw [hhere.peek_eq, walkValue, hskip]
    rfl
  | cons c rest =>
    rw [List.length_cons] at hlength
    have hinside : (Cursor.mk (offset + 1) rest).rest.length + 1 ≤ cursor.rest.length := hlength
    rw [hhere.peek_eq, List.head?_cons, Option.map_some]
    dsimp only
    split
    · rename_i heq
      cases heq
    · -- an object
      rename_i heq
      obtain rfl := (lead_eq_iff (by decide)).mp (Option.some.inj heq)
      have hopen : StandsIn raw ⟨offset + 1, rest⟩ := hhere.past ['\x7b'] rfl
      rw [walkValue_brace hskip, hopen.skip_isBlank]
      refine Agrees.inside (hmembers path room') (by decide) hopen (by omega) (by omega) (fun after hafter => ?_) fun hclose => ?_
      · simp only [hafter]
      · split
        · exact absurd ‹_› (hclose _)
        · rfl
    · -- a list
      rename_i heq
      obtain rfl := (lead_eq_iff (by decide)).mp (Option.some.inj heq)
      have hopen : StandsIn raw ⟨offset + 1, rest⟩ := hhere.past ['['] rfl
      rw [walkValue_bracket hskip, hopen.skip_isBlank]
      refine Agrees.inside (hitems room') (by decide) hopen (by omega) (by omega) (fun after hafter => ?_) fun hclose => ?_
      · simp only [hafter]
      · split
        · exact absurd ‹_› (hclose _)
        · rfl
    · -- a literal
      rename_i heq
      obtain rfl := (lead_eq_iff (by decide)).mp (Option.some.inj heq)
      rw [walkValue_quote hskip, hhere.literalEnd_eq]
      cases readLiteral ⟨offset, '"' :: rest⟩ rest with
      | error => rfl
      | ok read => cases path <;> rfl
    · -- a scalar
      rename_i d hbrace hbracket hquote heq
      obtain rfl := Option.some.inj heq
      have hne : ∀ {e : Char}, e.toNat < 0x80 → (lead c = e → False) → c ≠ e := fun he h heq => h ((lead_eq_iff he).mpr heq)
      rw [walkValue_other hskip (hne (by decide) hbrace) (hne (by decide) hbracket) (hne (by decide) hquote),
        hhere.skip_eq_add Bytewise.tellsBytes_scalar]
      cases hends : endsScalar c with
      | true =>
        rw [List.takeWhile_cons_of_neg (by rw [hends]; decide), utf8Length_nil, Nat.add_zero, if_pos rfl, if_pos rfl]
        rfl
      | false =>
        have hpos := c.utf8Size_pos
        rw [List.takeWhile_cons_of_pos (by rw [hends]; decide), if_neg (by rw [utf8Length_cons]; omega)]
        rfl

/-- Where the walks agree behind a value they agree on the value and what is behind it. -/
theorem ValuesAgree.behind (h : ValuesAgree raw room) {next : Nat → Found → Except Halt (Nat × Found)}
    {next' : Cursor → Found → Except Stop (Cursor × Found)} (hstands : StandsIn raw cursor)
    (hroom : 2 * cursor.rest.length + 1 ≤ room) (hroom' : 2 * cursor.rest.length + 1 ≤ room')
    (hnext : ∀ {behind found'}, StandsIn raw behind → behind.rest.length < cursor.rest.length →
      next behind.offset found' = told (next' behind found')) :
    (match Bytewise.value raw room path cursor.offset found with
      | .error halt => .error halt
      | .ok (behind, found) => next behind found) =
      told (match walkValue room' path cursor found with
        | .error stop => .error stop
        | .ok (behind, found) => next' behind found) := by
  rw [h path room' hstands hroom hroom']
  cases hwalk : walkValue room' path cursor found with
  | error => rfl
  | ok read =>
    obtain ⟨hadvance, hless⟩ := (moves_walk room').1 _ hwalk
    exact hnext (hadvance.standsIn hstands) hless

/-! ## Members -/

/-- Members begin with the literal of a key, a colon and a value; a comma leads to more of them. -/
theorem walkMembers_quote {offset : Nat} {rest : List Char} (h : cursor.skipBlanks = ⟨offset, '"' :: rest⟩) :
    walkMembers (room + 1) path cursor found =
      match readLiteral ⟨offset, '"' :: rest⟩ rest with
      | .error stop => .error stop
      | .ok (written, behind) =>
        match literalValue? written with
        | none => .error ⟨behind.offset, .invalidKey⟩
        | some key =>
          match behind.skipBlanks.rest with
          | ':' :: rest =>
            match walkValue room (path.map (· ++ [key])) (behind.skipBlanks.past [':'] rest) found with
            | .error stop => .error stop
            | .ok (behind, found) =>
              match behind.skipBlanks.rest with
              | ',' :: rest => walkMembers room path (behind.skipBlanks.past [','] rest) found
              | '\x7d' :: rest => .ok (behind.skipBlanks.past ['\x7d'] rest, found)
              | _ => .error ⟨behind.skipBlanks.offset, .expectedObjectEnd⟩
          | _ => .error ⟨behind.skipBlanks.offset, .expectedColon⟩ := by
  rw [walkMembers, h]
  rfl

/-- Behind a key, at a cursor at its colon, the walks read its value and what follows. -/
theorem MembersAgree.behindKey (hmembers : MembersAgree raw room) (hvalue : ValuesAgree raw room) (hstands : StandsIn raw cursor)
    (hroom : 2 * cursor.rest.length + 1 ≤ room + 2) (hroom' : 2 * cursor.rest.length + 1 ≤ room' + 2) (key : String) :
    (if peek raw cursor.offset = some ':' then
        match Bytewise.value raw room (path.map (· ++ [key])) (cursor.offset + 1) found with
        | .error halt => .error halt
        | .ok (behind, found) =>
          if peek raw (Bytewise.skip isBlank raw behind) = some ',' then
            Bytewise.members raw room path (Bytewise.skip isBlank raw behind + 1) found
          else if peek raw (Bytewise.skip isBlank raw behind) = some '\x7d' then .ok (Bytewise.skip isBlank raw behind + 1, found)
          else .error (.stop ⟨Bytewise.skip isBlank raw behind, .expectedObjectEnd⟩)
      else .error (.stop ⟨cursor.offset, .expectedColon⟩)) =
      told (match cursor.rest with
        | ':' :: rest =>
          match walkValue room' (path.map (· ++ [key])) (cursor.past [':'] rest) found with
          | .error stop => .error stop
          | .ok (behind, found) =>
            match behind.skipBlanks.rest with
            | ',' :: rest => walkMembers room' path (behind.skipBlanks.past [','] rest) found
            | '\x7d' :: rest => .ok (behind.skipBlanks.past ['\x7d'] rest, found)
            | _ => .error ⟨behind.skipBlanks.offset, .expectedObjectEnd⟩
        | _ => .error ⟨cursor.offset, .expectedColon⟩) := by
  refine hstands.ite_peek (by decide) (fun rest hrest => ?_) fun hother => ?_
  · have hshorter : (cursor.past [':'] rest).rest.length + 1 = cursor.rest.length := by
      rw [hrest]
      rfl
    simp only [hrest]
    refine hvalue.behind (hstands.past [':'] hrest) (by omega) (by omega) fun hbehind hless => ?_
    simp only [hbehind.skip_isBlank]
    refine Agrees.next (hmembers path room') (by decide) hbehind (by omega) (by omega) (fun rest hrest => ?_) (fun rest hrest => ?_)
      fun hcomma hclose => ?_
    · simp only [hrest]
    · simp only [hrest]
    · split
      · exact absurd ‹_› (hcomma _)
      · exact absurd ‹_› (hclose _)
      · rfl
  · split
    · exact absurd ‹_› (hother _)
    · rfl

theorem membersAgree_succ (hvalue : ValuesAgree raw room) (hmembers : MembersAgree raw room) : MembersAgree raw (room + 1) := by
  intro path room' cursor found hstands hroom hroom'
  obtain ⟨room', rfl⟩ : ∃ r, room' = r + 1 := ⟨room' - 1, by omega⟩
  have hlength := skipBlanks_length_le cursor
  have hhere := hstands.skipBlanks
  obtain ⟨offset, rest, hskip⟩ : ∃ offset rest, cursor.skipBlanks = ⟨offset, rest⟩ := ⟨_, _, rfl⟩
  rw [Bytewise.members, hstands.skip_isBlank]
  rw [hskip] at hhere hlength ⊢
  refine hhere.ite_peek (by decide) (fun after hquote => ?_) fun hquote => ?_
  · obtain rfl : rest = '"' :: after := hquote
    rw [hhere.literalEnd_eq, walkMembers_quote hskip]
    cases hread : readLiteral ⟨offset, '"' :: after⟩ after with
    | error => rfl
    | ok read =>
      obtain ⟨written, behind⟩ := read
      obtain ⟨inside, last, rfl, htext, rfl⟩ := exists_of_readLiteral hread
      have hbehind := hhere.past _ htext
      have hcolon : (Cursor.past ⟨offset, '"' :: after⟩ ('"' :: inside ++ ['"']) last).skipBlanks.rest.length ≤ last.length :=
        skipBlanks_length_le _
      have hlast : last.length + 2 ≤ cursor.rest.length := by
        rw [htext] at hlength
        simp only [List.length_append, List.length_cons] at hlength
        omega
      simp only [Except.map, hhere.slice?_past htext]
      cases literalValue? ('"' :: inside ++ ['"']) with
      | none => rfl
      | some key =>
        dsimp only
        rw [hbehind.skip_isBlank]
        exact hmembers.behindKey hvalue hbehind.skipBlanks (by omega) (by omega) key
  · rw [walkMembers, hskip]
    dsimp only
    split
    · exact absurd rfl (hquote _)
    · rfl

/-! ## Items -/

theorem itemsAgree_succ (hvalue : ValuesAgree raw room) (hitems : ItemsAgree raw room) : ItemsAgree raw (room + 1) := by
  intro room' cursor found hstands hroom hroom'
  obtain ⟨room', rfl⟩ : ∃ r, room' = r + 1 := ⟨room' - 1, by omega⟩
  rw [Bytewise.items, walkItems]
  refine hvalue.behind hstands (by omega) (by omega) fun hbehind hless => ?_
  simp only [hbehind.skip_isBlank]
  refine Agrees.next (hitems room') (by decide) hbehind (by omega) (by omega) (fun rest hrest => ?_) (fun rest hrest => ?_)
    fun hcomma hclose => ?_
  · simp only [hrest]
  · simp only [hrest]
  · split
    · exact absurd ‹_› (hcomma _)
    · exact absurd ‹_› (hclose _)
    · rfl

/-! ## Whole walks -/

/-- From every cursor in a text on and with enough room the two walks agree. -/
theorem walks_agree (raw : String) (room : Nat) : ValuesAgree raw room ∧ MembersAgree raw room ∧ ItemsAgree raw room := by
  induction room with
  | zero =>
    refine ⟨fun path room' cursor found hstands hroom => ?_, fun path room' cursor found hstands hroom => ?_,
      fun room' cursor found hstands hroom => ?_⟩ <;> omega
  | succ room ih =>
    obtain ⟨hvalue, hmembers, hitems⟩ := ih
    exact ⟨valuesAgree_succ hmembers hitems, membersAgree_succ hvalue hmembers, itemsAgree_succ hvalue hitems⟩

/-- The walk over the bytes of a text, with room for two steps per character and one more, does what the walk over its characters does. -/
theorem walk_agrees {start : Nat} {text : List Char} (hstands : StandsIn raw ⟨start, text⟩) (hroom : 2 * text.length + 1 ≤ room) :
    Bytewise.walk raw room start = (walk start text).mapError .stop := by
  have hvalue : Bytewise.value raw room (some []) start [] = _ :=
    (walks_agree raw room).1 (some []) (2 * text.length + 1) hstands hroom (Nat.le_refl _)
  rw [Bytewise.walk, walk, hvalue]
  cases hwalk : walkValue (2 * text.length + 1) (some []) ⟨start, text⟩ [] with
  | error => rfl
  | ok read =>
    obtain ⟨behind, found⟩ := read
    have hbehind : StandsIn raw behind := ((moves_walk _).1 _ hwalk).1.standsIn hstands
    simp only [told, hbehind.skip_isBlank, hbehind.skipBlanks.offset_eq_length_iff]
    split <;> rfl

end SealedConfig.Json.Span
