import SealedConfig.CommandLine.Overview
import SealedConfig.CommandLine.Update
import SealedConfig.CommandLine.Value
import SealedConfig.Proofs.Credential.Report
import SealedConfig.Proofs.KeyStore.Holding

/-!
# Commands that leave the files alone

Printing, reporting on credentials and reading documents change no file, whatever they come to, so neither do the commands that are
made of these.
-/

namespace SealedConfig

open Run

/-! ## Printing -/

namespace CommandLine

theorem spares_print (text : String) : Spares (outcome (print text)) := fun _ => rfl

theorem spares_complain (text : String) : Spares (outcome (complain text)) := fun _ => rfl

theorem yields_print (u : World) (text : String) : Yields u (print text) (.ok ()) :=
  fun _ hw => ⟨rfl, hw.files, hw.here, hw.environment, hw.fallbackHome⟩

theorem yields_complain (u : World) (text : String) : Yields u (complain text) (.ok ()) :=
  fun _ hw => ⟨rfl, hw.files, hw.here, hw.environment, hw.fallbackHome⟩

theorem spares_answerReport (context : Context) (report : Report) {advice : Run (StateM World) Unit} (h : Spares (outcome advice)) :
    Spares (outcome (context.answerReport report advice)) := by
  unfold Context.answerReport Context.printReport
  split
  · exact spares_print _
  split
  · exact spares_print _
  · refine (spares_print _).bind fun _ => (spares_forM fun field => spares_print _).bind fun _ => ?_
    cases report.backup with
    | none => exact h
    | some copy => exact (spares_print _).bind fun _ => h

end CommandLine

/-! ## Documents -/

theorem reads_load (path : String) : Reads (Document.load path) := by
  unfold Document.load
  refine (tells_debug _ _).reads.bind fun _ => (reads_pathExists path).bind fun found => ?_
  split
  · exact (reads_readText _ path).bind fun raw => reads_settle _ _
  · exact reads_fail _

theorem reads_scan (path : String) : Reads (Scan.load path) := by
  unfold Scan.load
  exact (reads_load path).bind fun doc => reads_pure _

/-! ## Commands -/

namespace CommandLine.Context

variable (context : Context)

theorem reads_store : Reads context.store := reads_ofSettings _ _

theorem reads_provider : Reads context.provider := by
  unfold provider KeyStore.provider
  exact context.reads_store.bind fun store => (KeyStore.reads_loadMaster store).bind fun key => reads_pure _

theorem reads_protector (purpose : String) : Reads (context.protector purpose) := by
  unfold protector
  exact context.reads_provider.bind fun provider => reads_pure _

theorem spares_readValue (value : Option String) : Spares (outcome (readValue value)) := by
  unfold readValue
  cases value with
  | some value => exact fun w => rfl
  | none =>
    have hinput : Spares (outcome (attempt (m := StateM World) .file Host.input)) := fun w => rfl
    refine hinput.bind fun bytes => ?_
    split
    · exact fun w => rfl
    · exact spares_fail _

theorem spares_decrypt (value : Option String) (key : String) : Spares (outcome (context.decrypt value key)) := by
  unfold decrypt
  refine (spares_readValue value).bind fun value => (context.reads_protector _).spares.bind fun p => ?_
  refine (spares_settle _ _).bind fun plain => (tells_inform _ _).reads.spares.bind fun _ => ?_
  split
  · exact spares_print _
  · exact spares_print _

theorem spares_list (path : Option String) : Spares (outcome (context.list path)) := by
  unfold list
  refine (reads_scan _).spares.bind fun scan => ?_
  split
  · exact spares_print _
  split
  · exact spares_print _
  · refine (spares_print _).bind fun _ => (spares_forM fun field => spares_print _).bind fun _ => ?_
    dsimp only
    split
    · exact (spares_print _).bind fun _ => spares_complain _
    · exact fun w => rfl

theorem spares_readSecret (p : Protector) (path key : String) : Spares (outcome (Document.readSecret p path key)) := by
  unfold Document.readSecret
  refine (reads_load path).spares.bind fun doc => ?_
  dsimp only
  split
  · exact spares_fail _
  · split
    · refine (spares_settle _ _).bind fun plain => Spares.bind (fun w => rfl) fun secret => ?_
      exact (tells_warn _ _).reads.spares.bind fun _ => fun w => rfl
    · refine (tells_warn _ _).reads.spares.bind fun _ => Spares.bind (fun w => rfl) fun secret => ?_
      exact (tells_warn _ _).reads.spares.bind fun _ => fun w => rfl

theorem spares_get (key : String) (file : Option String) : Spares (outcome (context.get key file)) := by
  unfold get
  refine (context.reads_protector _).spares.bind fun p => (spares_readSecret p _ key).bind fun secret => ?_
  split
  · exact spares_print _
  split
  · exact (spares_complain _).bind fun _ => spares_print _
  · exact spares_print _

theorem spares_check (path : Option String) : Spares (outcome (context.check path)) := by
  unfold check
  refine context.reads_store.spares.bind fun store => (context.reads_protector _).spares.bind fun p => ?_
  refine (reads_scan _).spares.bind fun scan => (tells_debug _ _).reads.spares.bind fun _ => ?_
  have hend (failed : List String) : Spares (outcome (if !failed.isEmpty then
      Run.fail (.valuesUndecipherable failed.length) else pure () : Run (StateM World) Unit)) := by
    split
    · exact spares_fail _
    · exact fun w => rfl
  dsimp only
  split
  · exact (spares_print _).bind fun _ => hend _
  · refine (spares_print _).bind fun _ => (spares_print _).bind fun _ => (spares_print _).bind fun _ => ?_
    refine (spares_print _).bind fun _ => (spares_forM fun key => spares_complain _).bind fun _ => ?_
    refine (spares_forM fun key => spares_complain _).bind fun _ => ?_
    split
    · exact (spares_print _).bind fun _ => hend _
    · exact hend _

theorem spares_resolver : Spares (outcome context.resolver) := by
  unfold resolver
  refine (reads_pathExists _).spares.bind fun found => ?_
  split
  on_goal 1 => refine (reads_load _).spares.bind fun doc => Spares.bind (fun w => rfl) ?_
  on_goal 2 => refine (tells_debug _ _).reads.spares.bind fun _ => Spares.bind (fun w => rfl) ?_
  all_goals
    intro document
    refine (spares_step context.reads_provider.spares).bind fun provider => ?_
    cases provider with
    | ok provider => exact fun w => rfl
    | error failure => exact (tells_debug _ _).reads.spares.bind fun _ => fun w => rfl

theorem spares_printHealth (health : Health) : Spares (outcome (context.printHealth health)) := by
  unfold printHealth
  refine (spares_print _).bind fun _ => (spares_print _).bind fun _ => (spares_print _).bind fun _ => ?_
  refine (spares_print _).bind fun _ => ?_
  have hfailure : Spares (outcome (health.failure.forM fun message => context.style.error message :
      Run (StateM World) PUnit)) := by
    cases health.failure with
    | none => exact fun w => rfl
    | some message => exact spares_complain _
  cases health.source with
  | none => exact hfailure
  | some source => exact (spares_print _).bind fun _ => hfailure

theorem spares_credential (name : String) : Spares (outcome (context.credential name)) := by
  unfold credential
  refine context.spares_resolver.bind fun resolver => (spares_settle _ _).bind fun kinds => ?_
  refine (spares_mapM fun kind => spares_step (resolver.onlyTells_health kind).spares).bind fun reports => ?_
  have hend : Spares (outcome (if (reports.filter fun health => !health.isLoadable).length ≠ 0 then
      Run.fail (.credentialsMissing (reports.filter fun health => !health.isLoadable).length reports.length)
      else pure () : Run (StateM World) Unit)) := by
    split
    · exact spares_fail _
    · exact fun w => rfl
  split
  · exact (spares_print _).bind fun _ => hend
  · exact (spares_forM context.spares_printHealth).bind fun _ => hend

end CommandLine.Context

end SealedConfig
