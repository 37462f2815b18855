import SealedConfig.Proofs.Bulk.Stopping
import SealedConfig.Proofs.CommandLine.Session

/-!
# What a check foretells

A check tries every marked text of a document and goes on behind those that do not open, while decrypting stops at the first of them.
What the check finds tells all the same what decrypting comes to.
-/

namespace SealedConfig

open Run

/-! ## The check -/

namespace CommandLine.Context

/-- A check that has found the texts of a scan not to open: it fails with their number, if there are any, and an answer that is a tree
lists them. -/
structure Finds (context : Context) (w : World) (failed : Scan) (checked : Except Failure Unit × World) : Prop where
  result : checked.1 = if failed.isEmpty then .ok () else .error (.valuesUndecipherable failed.length)
  answer : context.asJson = true → ∃ members : List (String × Json),
    checked.2.output = w.output ++ ((Json.object members).pretty ++ "\n") ∧
      members.lookup "failed" = some (.array (failed.map fun field => .string field.path.display))

variable {context : Context} {w : World} {p : Protector} {doc : Document} {mode : Nat} {argument : Option String}

/-- Whatever it has printed, a check ends by telling how many texts do not open. -/
theorem outcome_end (failed : Scan) (w : World) :
    outcome (if (!(failed.map fun field => field.path.display).isEmpty) = true then
      Run.fail (.valuesUndecipherable (failed.map fun field => field.path.display).length) else pure () : Run (StateM World) Unit) w =
        (if failed.isEmpty then .ok () else .error (.valuesUndecipherable failed.length), w) := by
  rw [List.isEmpty_map, List.length_map]
  cases failed <;> rfl

/-- A check of a document finds the marked texts that do not open. -/
theorem finds_check (hdoc : doc.StandsAt w.files w.here (context.documentPath argument) mode)
    (hp : (outcome (context.protector Protector.configSecrets) w).1 = .ok p) :
    context.Finds w (unopened p (Scan.ofDocument doc)) (outcome (context.check argument) w) := by
  obtain ⟨master, ⟨store, hstore, -⟩, -⟩ := protector_eq_ok_iff.mp hp
  have hscan : (outcome (Scan.load (context.documentPath argument)) w).1 = .ok (Scan.ofDocument doc) :=
    (reads_load _).bind_ok (fun _ => reads_pure _) (load_eq_ok_iff.mpr ⟨mode, hdoc⟩) rfl
  -- the store, the key and the document are only read, so the answer is put out where nothing has been disturbed
  obtain ⟨first, hfirst, hstored⟩ := context.reads_store.exists_outcome (.refl w) hstore
  obtain ⟨second, hsecond, hprotected⟩ := (context.reads_protector _).exists_outcome hfirst hp
  obtain ⟨third, hthird, hscanned⟩ := (reads_scan _).exists_outcome hsecond hscan
  unfold check
  rw [outcome_bind_ok hstored, outcome_bind_ok hprotected, outcome_bind_ok hscanned]
  generalize unopened p (Scan.ofDocument doc) = failed
  obtain ⟨event, htells⟩ := tells_debug "check finished" [Log.count "encrypted" (Scan.ofDocument doc).encrypted.length,
    Log.count "plain" ((Scan.ofDocument doc).plain.map fun field => field.path.display).length,
    Log.count "failed" (failed.map fun field => field.path.display).length]
  have htold := hthird.trans (third.undisturbed_tell event)
  dsimp only
  rw [outcome_bind_ok (htells third)]
  cases hform : context.asJson with
  | true =>
    have hprint (tree : Json) (v : World) :
        outcome (printJson tree) v = (.ok (), { v with output := v.output ++ (tree.pretty ++ "\n") }) := rfl
    rw [if_pos rfl, outcome_bind_ok (hprint _ _), outcome_end, List.map_map]
    refine ⟨rfl, fun _ => ⟨_, congrArg (· ++ _) htold.output, ?_⟩⟩
    simp [List.lookup]
  | false =>
    rw [if_neg nofun]
    refine ⟨?_, fun hjson => ?_⟩
    · have hends (u : World) : Yields u _ (if failed.isEmpty then .ok () else .error (.valuesUndecipherable failed.length)) :=
        yields_of_reads fun v _ => outcome_end failed v
      refine ((?_ : Yields (third.tell event) _ _) _ (.refl _)).1
      refine (yields_print _ _).bind_ok <| (yields_print _ _).bind_ok <| (yields_print _ _).bind_ok <| (yields_print _ _).bind_ok ?_
      refine (yields_forM fun key => yields_complain _ _).bind_ok <| (yields_forM fun key => yields_complain _ _).bind_ok ?_
      split
      · exact (yields_print _ _).bind_ok (hends _)
      · exact hends _
    · rw [hform] at hjson
      cases hjson

/-! ## The prediction -/

/-- All marked texts open when none is found not to. -/
theorem opens_of_unopened_eq_nil {scan : Scan} (h : unopened p scan = []) :
    ∀ field ∈ scan.encrypted, ∃ text, Envelope.disclose p field.value = .ok text := by
  intro field hf
  have hopens := List.filter_eq_nil_iff.mp h field hf
  rw [Bool.not_eq_true', Bool.not_eq_false] at hopens
  exact Outcome.isOk_iff.mp hopens

/-- The first text that is found not to open is marked and does not open, while those before it open. -/
theorem exists_of_unopened_eq_cons {scan : Scan} {first : SecretField} {rest : List SecretField}
    (h : unopened p scan = first :: rest) :
    ∃ before behind fault, scan.encrypted = before ++ first :: behind ∧
      (∀ earlier ∈ before, ∃ text, Envelope.disclose p earlier.value = .ok text) ∧
      Envelope.disclose p first.value = .error fault := by
  obtain ⟨before, behind, hsplit, hbefore, hfirst, -⟩ := List.filter_eq_cons_iff.mp h
  rw [Bool.not_eq_true'] at hfirst
  obtain ⟨fault, hfault⟩ := Outcome.isOk_eq_false_iff.mp hfirst
  refine ⟨before, behind, fault, hsplit, fun earlier hearlier => ?_, hfault⟩
  have hopens := hbefore earlier hearlier
  rw [Bool.not_eq_true', Bool.not_eq_false] at hopens
  exact Outcome.isOk_iff.mp hopens

/-- A check of a document predicts what decrypting it comes to where nothing hinders that. When all its marked texts open, decrypting
reports them in their order and puts in the place of each what it held, and of nothing else; when there are none, nothing is done. When
some do not open, decrypting fails at the first that the check finds, with its fault, and leaves the document as it was. -/
theorem check_predicts_decrypt (p : Protector) {cancelAfter : Option Nat} {path : String} (hdoc : doc.StandsAt w.files w.here path mode)
    (h : Bulk.Unhindered cancelAfter path (Scan.ofDocument doc).encrypted.length w) :
    (∀ (context : Context) (argument : Option String), context.documentPath argument = path →
      (outcome (context.protector Protector.configSecrets) w).1 = .ok p →
      context.Finds w (unopened p (Scan.ofDocument doc)) (outcome (context.check argument) w)) ∧
    (unopened p (Scan.ofDocument doc) = [] → ∃ report after,
      outcome (Bulk.update p .decrypt true cancelAfter path) w = (.ok report, after) ∧
        Bulk.DecryptsAll p doc path mode w report after) ∧
    ∀ first rest, unopened p (Scan.ofDocument doc) = first :: rest → ∃ fault after,
      Envelope.disclose p first.value = .error fault ∧
      outcome (Bulk.update p .decrypt true cancelAfter path) w = (.error (.bulk (.field .decrypt first.path fault)), after) ∧
        after.files.stat w.here path = w.files.stat w.here path := by
  refine ⟨?_, ?_, ?_⟩
  · rintro context argument rfl hp
    exact finds_check hdoc hp
  · intro hnone
    exact Bulk.update_decryptsAll hdoc h (opens_of_unopened_eq_nil hnone)
  · intro first rest hsome
    obtain ⟨before, behind, fault, hsplit, hopens, hfault⟩ := exists_of_unopened_eq_cons hsome
    obtain ⟨after, hrun, htarget⟩ := Bulk.update_fails_first hdoc h hsplit hopens hfault
    exact ⟨fault, after, hfault, hrun, htarget⟩

/-- A document with three marked texts: the bare marker, which opens to the empty text, and two that are no envelopes. -/
def brokenDocument : Document where
  path := some "app.json"
  raw := "\x7b\"Password\": \"ENCRYPTED:\", \"Token\": \"ENCRYPTED:AAAA\", \"Secret\": \"ENCRYPTED:!\"\x7d"
  tree := .object [("Password", .string "ENCRYPTED:"), ("Token", .string "ENCRYPTED:AAAA"), ("Secret", .string "ENCRYPTED:!")]
  readTree_raw := by cbv

/-- A world with that document and a bare key file. -/
def brokenWorld : World :=
  { sampleHome with
    files := ⟨[(["work"], .directory 0o755), (["work", "app.json"], .file (Bytes.ofText brokenDocument.raw) 0o600),
      (["work", "keys"], .directory 0o700),
      (["work", "keys", "master.key"], .file (Bytes.ofText (zeroKey.toBase64 ++ "\n")) 0o600)]⟩ }

/-- A check of the broken document finds two texts that do not open, and decrypting it fails at the first of them. A document of which
the one envelope opens is decrypted. -/
theorem check_predicts_decrypt_broken :
    (outcome (Context.check ⟨sampleSettings, false, openCipher, ⟨false⟩⟩ (some "app.json")) brokenWorld).1 =
        .error (.valuesUndecipherable 2) ∧
      (∃ fault after, outcome (Bulk.update (valueProtector sampleSettings zeroKey) .decrypt true none "app.json") brokenWorld =
        (.error (.bulk (.field .decrypt ["Token"] fault)), after)) ∧
      ∃ report after, outcome (Bulk.update Bulk.sampleProtector .decrypt true none "app.json")
        (Bulk.worldOf (Bulk.tokenDocument "x")) = (.ok report, after) := by
  have hdoc : brokenDocument.StandsAt brokenWorld.files brokenWorld.here "app.json" 0o600 := ⟨rfl, rfl⟩
  have hunhindered (count : Nat) : Bulk.Unhindered none "app.json" count brokenWorld :=
    Bulk.unhindered_of_free rfl ⟨_, rfl⟩ ⟨⟨["work", "app.json.backup.19700101000000"], false⟩, rfl, rfl⟩ count
  have hscan : unopened (valueProtector sampleSettings zeroKey) (Scan.ofDocument brokenDocument) =
      [⟨["Token"], "ENCRYPTED:AAAA", true⟩, ⟨["Secret"], "ENCRYPTED:!", true⟩] := by
    have hmarked : (Scan.ofDocument brokenDocument).encrypted =
        [⟨["Password"], "ENCRYPTED:", true⟩, ⟨["Token"], "ENCRYPTED:AAAA", true⟩, ⟨["Secret"], "ENCRYPTED:!", true⟩] := by cbv
    rw [unopened, hmarked]
    rfl
  obtain ⟨hfinds, -, hfails⟩ := check_predicts_decrypt (valueProtector sampleSettings zeroKey) hdoc (hunhindered _)
  have hfound := hfinds ⟨sampleSettings, false, openCipher, ⟨false⟩⟩ (some "app.json") rfl
    (protector_eq_ok_iff.mpr ⟨zeroKey, zeroKey_holds rfl, rfl⟩)
  obtain ⟨fault, after, -, hrun, -⟩ := hfails _ _ hscan
  rw [hscan] at hfound
  have hnone : unopened Bulk.sampleProtector (Scan.ofDocument (Bulk.tokenDocument "x")) = [] := by
    refine List.filter_eq_nil_iff.mpr fun field hf => ?_
    obtain ⟨hbehind, hstands, hm, -⟩ := (Scan.mem_encrypted_iff (Bulk.tokenDocument "x").hasDistinctKeys).mp hf
    obtain ⟨-, hvalue⟩ := (Bulk.isMarkedAt_tokenDocument (by decide)).mp ⟨hbehind, hstands, hm⟩
    have hopen : Envelope.disclose Bulk.sampleProtector (Bulk.sampleEnvelope "x") = .ok "x" :=
      Envelope.disclose_enclose Bulk.sampleProtector _ "x"
    rw [hvalue, hopen]
    exact Bool.false_ne_true
  obtain ⟨report, after', hok, -⟩ := (check_predicts_decrypt Bulk.sampleProtector (Bulk.worldOf_standsAt rfl)
    (Bulk.worldOf_unhindered _ _)).2.1 hnone
  exact ⟨hfound.result, ⟨fault, after, hrun⟩, report, after', hok⟩

end CommandLine.Context

end SealedConfig
