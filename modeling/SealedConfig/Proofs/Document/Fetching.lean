import SealedConfig.Proofs.Bulk.Consumers
import SealedConfig.Proofs.Bulk.Decrypting
import SealedConfig.Proofs.Document.Scan
import SealedConfig.Proofs.KeyPath

/-!
# Fetching what is listed

A secret is listed under the text form of its path. Read as a name, that text leads back to the secret just when every key of the path
can be named, and then the secret is fetched as it stands. There is no way to name a key that is empty or holds a separator.
-/

namespace SealedConfig

open Run

/-! ## Names and look-ups -/

namespace KeyPath

/-- No capital letter and nothing behind them separates keys. -/
theorem isSeparator_of_le {c : Char} (h : 65 ≤ c.val.toNat) : isSeparator c = false := by
  have hne (d : Char) (hd : d.val.toNat < 65) : (c == d) = false := by
    refine beq_eq_false_iff_ne.mpr ?_
    rintro rfl
    omega
  rw [isSeparator, hne ':' (by decide), hne '/' (by decide)]
  rfl

theorem isSeparator_toLower (c : Char) : isSeparator c.toLower = isSeparator c := by
  unfold Char.toLower
  split
  · rename_i hupper
    have hlow : 65 ≤ c.val.toNat := hupper.1
    have hhigh : c.val.toNat ≤ 90 := hupper.2
    have hsum : (c.val + ('a'.val - 'A'.val)).toNat = (c.val.toNat + 32) % 2 ^ 32 := UInt32.toNat_add _ _
    rw [isSeparator_of_le hlow, isSeparator_of_le (by rw [hsum]; omega)]
  · rfl

/-- Whether a key can be named does not depend on the case of its letters. -/
theorem IsName.of_sameIgnoringCase {spelled key : String} (hname : IsName key) (h : Json.sameIgnoringCase spelled key = true) :
    IsName spelled := by
  have hlower : spelled.toList.map Char.toLower = key.toList.map Char.toLower := eq_of_beq h
  refine ⟨?_, ?_⟩
  · rintro rfl
    refine hname.1 ?_
    simpa using hlower.symm
  · intro c hc
    have hmem : c.toLower ∈ key.toList.map Char.toLower := hlower ▸ List.mem_map_of_mem hc
    obtain ⟨d, hd, heq⟩ := List.mem_map.mp hmem
    rw [← isSeparator_toLower, ← heq, isSeparator_toLower]
    exact hname.2 d hd

/-- A look-up by a name leads only to nodes whose paths can be named. -/
theorem isNamed_of_trace?_parse {tree : Json} {name : String} {path : KeyPath} {node : Json}
    (h : tree.trace? (parse name) = some (path, node)) : path.IsNamed := by
  have hsame := List.forall₂_iff_get.mp (Json.forall₂_of_trace? h)
  intro key hkey
  obtain ⟨i, hi, rfl⟩ := List.mem_iff_getElem.mp hkey
  have hi' : i < (parse name).length := hsame.1 ▸ hi
  exact (isNamed_parse name _ (List.getElem_mem hi')).of_sameIgnoringCase (hsame.2 i hi hi')

end KeyPath

/-! ## Listed secrets -/

/-- The text that a listed secret stands for: its own, or the one in its envelope. -/
def SecretField.StandsFor (field : SecretField) (p : Protector) (text : String) : Prop :=
  if field.isEncrypted then Envelope.disclose p field.value = .ok text else text = field.value

namespace Document

variable {p : Protector} {doc : Document} {field : SecretField} {text : String}

/-- A listed secret is looked up under its own path, whatever keys beside it differ from its keys in case only. -/
theorem trace?_of_mem_scan (h : field ∈ Scan.ofDocument doc) : doc.tree.trace? field.path = some (field.path, .string field.value) :=
  Json.trace?_of_nodeAt? (Json.textAt?_eq_some_iff.mp ((Scan.mem_ofTree_iff doc.hasDistinctKeys).mp h).2.1)

/-- The name of a listed secret leads back to it just when its keys can be named. -/
theorem trace?_parse_display_iff (h : field ∈ Scan.ofDocument doc) :
    (∃ node, doc.tree.trace? (KeyPath.parse field.path.display) = some (field.path, node)) ↔ field.path.IsNamed := by
  constructor
  · rintro ⟨node, htrace⟩
    exact KeyPath.isNamed_of_trace?_parse htrace
  · intro hnamed
    rw [KeyPath.parse_display hnamed]
    exact ⟨_, trace?_of_mem_scan h⟩

/-- Under its name a listed secret is had with the text that it stands for. -/
theorem namedSecret_of_mem_scan (h : field ∈ Scan.ofDocument doc) (hnamed : field.path.IsNamed) (hstands : field.StandsFor p text) :
    doc.namedSecret p field.path.display = .ok ⟨field.path.display, text, field.isEncrypted⟩ := by
  obtain ⟨-, -, ⟨hne, -⟩, hmarked⟩ := (Scan.mem_ofTree_iff doc.hasDistinctKeys).mp h
  have hstored : doc.getText? field.path = some field.value := by
    rw [getText?, get?, Json.get?_eq_map_trace?, trace?_of_mem_scan h]
    rfl
  have hkept : (some field.value).filter (· ≠ "") = some field.value := by simp [hne]
  rw [namedSecret, KeyPath.parse_display hnamed, hstored, hkept]
  dsimp only
  rw [SecretField.StandsFor, hmarked] at hstands
  rw [hmarked]
  split
  · rename_i hm
    rw [if_pos hm] at hstands
    rw [hstands, hm]
    rfl
  · rename_i hm
    rw [if_neg hm] at hstands
    rw [hstands, Bool.eq_false_of_not_eq_true hm]

/-- Two secrets of one scan are told apart by their paths. -/
theorem eq_of_mem_scan {other : SecretField} (h : field ∈ Scan.ofDocument doc) (h' : other ∈ Scan.ofDocument doc)
    (heq : field.path = other.path) : field = other :=
  List.inj_on_of_nodup_map (Scan.nodup_paths_ofTree doc.hasDistinctKeys) h h' heq

/-- Every listed secret whose keys can be named is fetched by its listed name. Its name leads back to it just when no key of its path is
empty or holds a separator; then reading the secret from the file succeeds with the text that it stands for and with its own status, and
no other such secret is listed under the same name. -/
theorem readSecret_listed {w : World} {path : String} {mode : Nat} (hdoc : doc.StandsAt w.files w.here path mode) (p : Protector) :
    (∀ field ∈ Scan.ofDocument doc,
      ((∃ node, doc.tree.trace? (KeyPath.parse field.path.display) = some (field.path, node)) ↔ field.path.IsNamed) ∧
        (field.path.IsNamed → ∀ text, field.StandsFor p text →
          (outcome (readSecret p path field.path.display) w).1 = .ok ⟨field.path.display, text, field.isEncrypted⟩)) ∧
      ∀ field ∈ Scan.ofDocument doc, ∀ other ∈ Scan.ofDocument doc, field.path.IsNamed → other.path.IsNamed →
        field.path.display = other.path.display → field = other := by
  have hload : outcome (load path) w = (.ok doc, (outcome (load path) w).2) := Prod.ext (load_eq_ok_iff.mpr ⟨mode, hdoc⟩) rfl
  refine ⟨fun field hfield => ⟨trace?_parse_display_iff hfield, ?_⟩, ?_⟩
  · intro hnamed text hstands
    rw [outcome_readSecret hload]
    exact namedSecret_of_mem_scan hfield hnamed hstands
  · intro field hfield other hother hnamed hnamed' heq
    exact eq_of_mem_scan hfield hother (KeyPath.display_inj hnamed hnamed' heq)

/-- A document with two secrets whose keys differ in case only. -/
def twins : Document where
  path := some "app.json"
  raw := "\x7b\"Core\": \x7b\"Password\": \"x\"\x7d, \"core\": \x7b\"PASSWORD\": \"y\"\x7d\x7d"
  tree := .object [("Core", .object [("Password", .string "x")]), ("core", .object [("PASSWORD", .string "y")])]
  readTree_raw := by cbv

/-- Each of them is fetched by its own name, and the secret in an envelope is fetched open. -/
theorem readSecret_listed_twins :
    (outcome (readSecret Bulk.sampleProtector "app.json" "Core:Password") (Bulk.worldOf twins)).1 =
        .ok ⟨"Core:Password", "x", false⟩ ∧
      (outcome (readSecret Bulk.sampleProtector "app.json" "core:PASSWORD") (Bulk.worldOf twins)).1 =
        .ok ⟨"core:PASSWORD", "y", false⟩ ∧
      (outcome (readSecret Bulk.sampleProtector "app.json" "Token") (Bulk.worldOf (Bulk.tokenDocument "x"))).1 =
        .ok ⟨"Token", "x", true⟩ := by
  have hlisted : Scan.ofDocument twins = [⟨["Core", "Password"], "x", false⟩, ⟨["core", "PASSWORD"], "y", false⟩] := by cbv
  have htwins := (readSecret_listed (Bulk.worldOf_standsAt rfl : twins.StandsAt _ _ "app.json" _) Bulk.sampleProtector).1
  have htoken := (readSecret_listed (Bulk.worldOf_standsAt rfl : (Bulk.tokenDocument "x").StandsAt _ _ "app.json" _)
    Bulk.sampleProtector).1
  rw [hlisted] at htwins
  refine ⟨(htwins _ List.mem_cons_self).2 (by decide) "x" rfl, ?_, ?_⟩
  · exact (htwins _ (List.mem_cons_of_mem _ List.mem_cons_self)).2 (by decide) "y" rfl
  · have hmem : ⟨["Token"], Bulk.sampleEnvelope "x", true⟩ ∈ (Scan.ofDocument (Bulk.tokenDocument "x")).encrypted :=
      (Scan.mem_encrypted_iff (Bulk.tokenDocument "x").hasDistinctKeys).mpr
        ⟨List.cons_ne_nil _ _, rfl, Envelope.isMarked_enclose Bulk.sampleProtector _ (by decide), rfl⟩
    exact (htoken _ (List.mem_filter.mp hmem).1).2 (by decide) "x" (Envelope.disclose_enclose Bulk.sampleProtector _ "x")

/-- A document with a secret under a key that holds a separator, beside one that is named like it. -/
def separated : Document where
  path := some "app.json"
  raw := "\x7b\"a\": \x7b\"Password\": \"x\"\x7d, \"a:Password\": \"y\"\x7d"
  tree := .object [("a", .object [("Password", .string "x")]), ("a:Password", .string "y")]
  readTree_raw := by cbv

/-- The two are listed under one name, and fetching by it gives the other secret in place of the one under the key. -/
theorem readSecret_separated :
    ∃ field ∈ Scan.ofDocument separated, ∃ other ∈ Scan.ofDocument separated,
      field ≠ other ∧ field.path.display = other.path.display ∧ field.StandsFor Bulk.sampleProtector "y" ∧
        (outcome (readSecret Bulk.sampleProtector "app.json" field.path.display) (Bulk.worldOf separated)).1 =
          .ok ⟨"a:Password", "x", false⟩ := by
  have hlisted : Scan.ofDocument separated = [⟨["a", "Password"], "x", false⟩, ⟨["a:Password"], "y", false⟩] := by cbv
  have hload : (outcome (load "app.json") (Bulk.worldOf separated)).1 = .ok separated :=
    load_eq_ok_iff.mpr ⟨_, Bulk.worldOf_standsAt rfl⟩
  rw [hlisted]
  refine ⟨_, List.mem_cons_of_mem _ List.mem_cons_self, _, List.mem_cons_self, by decide, by decide, rfl, ?_⟩
  rw [outcome_readSecret (Prod.ext hload rfl)]
  rfl

end Document

end SealedConfig
