import Mathlib
import SealedConfig.Document.Basic
import SealedConfig.Proofs.Json.Agreeing
import SealedConfig.Proofs.Json.Node

/-!
# What is located in any text

Literals are located in texts that no reader has accepted. Whatever the text, the walk over its bytes comes to an end, with the literals
or at a fault of the text, and never cuts a character. All that it finds stands between quotes of the text, and two paths share no byte.
-/

namespace SealedConfig.Document

open Json Json.Span
open Json.Bytewise (peek)

variable {raw : String} {span : Span} {found : Found}

/-- A span that lies in a text on character boundaries and begins and ends with a quote, two different bytes. -/
structure BetweenQuotes (raw : String) (span : Span) : Prop where
  within : span.stop ≤ (Bytes.ofText raw).length
  whole : ∃ inside, slice? raw.toList span = some ('"' :: inside ++ ['"'])
  opens : peek raw span.start = some '"'
  closes : peek raw (span.stop - 1) = some '"'
  distinct : span.start < span.stop - 1

/-- The walk over a text begins behind its byte order mark. -/
theorem standsIn_body (raw : String) : StandsIn raw ⟨(body raw).1, (body raw).2⟩ := by
  unfold body
  split
  · rename_i htext
    exact ⟨[], htext, rfl⟩
  · rename_i c rest htext
    by_cases hmark : c = byteOrderMark
    · rw [if_pos hmark]
      exact ⟨[byteOrderMark], by rw [htext, hmark]; rfl, rfl⟩
    · rw [if_neg hmark]
      exact ⟨[], htext, rfl⟩

/-- The text behind a byte order mark is no longer than the whole. -/
theorem length_body_le (raw : String) : (body raw).2.length ≤ raw.length := by
  obtain ⟨before, htext, -⟩ := standsIn_body raw
  rw [← String.length_toList, htext, List.length_append]
  exact Nat.le_add_left _ _

/-- A literal of a text lies between quotes. -/
theorem betweenQuotes_of_isQuoted (h : IsQuoted raw span) : BetweenQuotes raw span := by
  obtain ⟨before, inside, after, htext, rfl⟩ := h
  have hopen : StandsIn raw ⟨utf8Length before, ('"' :: inside ++ ['"']) ++ after⟩ :=
    ⟨before, by rw [htext, List.append_assoc before], rfl⟩
  have hclose : StandsIn raw ⟨utf8Length before + utf8Length inside + 1, '"' :: after⟩ := by
    refine ⟨before ++ '"' :: inside, by simp [htext], ?_⟩
    rw [utf8Length_append, utf8Length_cons, show '"'.utf8Size = 1 from rfl, Nat.add_comm 1, Nat.add_assoc]
  have hend : StandsIn raw ⟨utf8Length before + utf8Length inside + 2, after⟩ := hclose.past ['"'] rfl
  have hstop : utf8Length before + utf8Length ('"' :: inside ++ ['"']) = utf8Length before + utf8Length inside + 2 := by
    simp only [List.cons_append, utf8Length_cons, utf8Length_append, utf8Length_nil, show '"'.utf8Size = 1 from rfl]
    omega
  refine ⟨hend.offset_le_length, ⟨inside, ?_⟩, (hopen.peek_eq_some_iff (by decide)).mpr ⟨_, rfl⟩,
    (hclose.peek_eq_some_iff (by decide)).mpr ⟨_, rfl⟩, ?_⟩
  · rw [htext, ← hstop]
    exact slice?_covering before _ after
  · change utf8Length before < utf8Length before + utf8Length inside + 2 - 1
    omega

/-- Two literals that were recorded apart have no byte in common. -/
theorem disjoint_of_span? {cursor : Cursor} (h : Sound raw cursor found) {path other : KeyPath} {span span' : Span} (hne : path ≠ other)
    (hspan : found.span? path = some span) (hspan' : found.span? other = some span') :
    span.stop ≤ span'.start ∨ span'.stop ≤ span.start := by
  have hsymm : Std.Symm fun a b : KeyPath × Span => a.2.stop ≤ b.2.start ∨ b.2.stop ≤ a.2.start := ⟨fun a b hab => hab.symm⟩
  have hapart : found.Pairwise fun a b => a.2.stop ≤ b.2.start ∨ b.2.stop ≤ a.2.start := h.apart.imp Or.inr
  exact List.Pairwise.forall hapart (mem_of_lookup hspan) (mem_of_lookup hspan') fun heq => hne (congrArg Prod.fst heq)

/-- Whatever the text, a walk over its bytes that has room for two steps per character and one more ends as the walk over its characters
does: with the literals that it found, or at a fault of the text, never for want of room and never at a cut inside a character or outside
the text. Every span that is found lies in the text on character boundaries between two quotes, and those of two paths have no byte in
common. -/
theorem locate_total (raw : String) :
    (∀ room, 2 * raw.length + 1 ≤ room → Bytewise.walk raw room (body raw).1 = (locate raw).mapError .stop) ∧
      ∀ found, locate raw = .ok found →
        (∀ path span, found.span? path = some span → BetweenQuotes raw span) ∧
          ∀ path other span span', path ≠ other → found.span? path = some span → found.span? other = some span' →
            span.stop ≤ span'.start ∨ span'.stop ≤ span.start := by
  have hstands := standsIn_body raw
  have henough : 2 * (body raw).2.length + 1 ≤ 2 * raw.length + 1 := Nat.succ_le_succ (Nat.mul_le_mul_left 2 (length_body_le raw))
  refine ⟨fun room hroom => walk_agrees hstands (Nat.le_trans henough hroom), fun found hfound => ?_⟩
  obtain ⟨cursor, hsound⟩ := sound_of_walk hstands hfound
  refine ⟨fun path span hspan => ?_, fun path other span span' hne => disjoint_of_span? hsound hne⟩
  exact betweenQuotes_of_isQuoted (hsound.quoted _ (mem_of_lookup hspan))

/-- A text that is no JSON: a backslash stands in front of a character of two bytes. -/
def strayEscape : String := "\x7b\"a\": \"\\\u00e9\", \"b\": \"\u00fc\"\x7d"

/-- The walk takes the whole character along and finds both literals. -/
theorem locate_total_strayEscape :
    locate strayEscape = .ok [(["b"], ⟨18, 22⟩), (["a"], ⟨6, 11⟩)] ∧
      2 * strayEscape.length + 1 ≤ 100 ∧ Bytewise.walk strayEscape 100 0 = .ok [(["b"], ⟨18, 22⟩), (["a"], ⟨6, 11⟩)] ∧
      BetweenQuotes strayEscape ⟨6, 11⟩ ∧ (11 ≤ 18 ∨ 22 ≤ 6) := by
  obtain ⟨hbytes, hfound⟩ := locate_total strayEscape
  have hok : locate strayEscape = .ok [(["b"], ⟨18, 22⟩), (["a"], ⟨6, 11⟩)] := by cbv
  have hroom : 2 * strayEscape.length + 1 ≤ 100 := by decide
  obtain ⟨hquotes, hapart⟩ := hfound _ hok
  refine ⟨hok, hroom, ?_, hquotes ["a"] _ rfl, hapart ["a"] ["b"] _ _ (by decide) rfl rfl⟩
  have hwalk := hbytes 100 hroom
  rw [hok] at hwalk
  exact hwalk

end SealedConfig.Document
