import SealedConfig.Proofs.CommandLine.Answering

/-!
# Runs of the program

A command line that asks for a command runs it under the settings in effect, once these could be read; every other command line leaves
the files alone. The exit code tells whether the command succeeded.
-/

namespace SealedConfig

open Run

/-! ## Settings -/

theorem reads_settings (path : Option String) : Reads (Settings.load path) := by
  have hfile (path : String) : Reads (Settings.loadFile path) := by
    unfold Settings.loadFile
    refine (tells_debug _ _).reads.bind fun _ => (reads_readText _ path).bind fun text => ?_
    exact (reads_settle _ _).bind fun settings => (reads_settle _ _).bind fun _ => reads_pure settings
  unfold Settings.load
  cases path with
  | some path => exact hfile path
  | none =>
    refine (reads_pathExists _).bind fun found => ?_
    split
    · exact hfile _
    · exact (tells_debug _ _).reads.bind fun _ => reads_pure _

namespace CommandLine

variable {cipher : FileCipher} {words : List String} {w after : World} {code : UInt8} {invocation : Invocation}

/-- What the words of a command line ask for in a world. -/
def asked (words : List String) (w : World) : Except Stop Invocation :=
  Invocation.ofWords words (w.envValue? configVariable) (w.envValue? keyDirVariable)

/-- The settings in effect for what a command line asks for. -/
def settingsInEffect (invocation : Invocation) (w : World) : Except Failure Settings :=
  (outcome (Settings.load invocation.config) w).1.map (·.withKeyDir invocation.keyDir)

/-- What the program comes to in a world: its exit code, and the world that it leaves. -/
def ran (cipher : FileCipher) (words : List String) (w : World) : UInt8 × World := (runWith cipher words : StateM World UInt8) w

/-- Running a command and telling its failure, to an exit code. -/
def runTelling (cipher : FileCipher) (style : Style) (invocation : Invocation) : StateM World UInt8 := do
  match ← (execute cipher style invocation).run with
  | .ok () => return 0
  | .error failure =>
    discard (tellFailure (m := StateM World) style failure).run
    return 1

/-- Running what a command line asks for, to an exit code. -/
def runAsked (cipher : FileCipher) (invocation : Invocation) : StateM World UInt8 := do
  Host.listen (← logFilter invocation.isVerbose)
  runTelling cipher (← Style.ofEnvironment) invocation

/-- Putting out why no command is run, to an exit code. -/
def putOut (words : List String) (stop : Stop) : StateM World UInt8 :=
  match stop with
  | .refused => do
    Host.complain (← Host.manual (.refusal words))
    return 2
  | .help => do
    Host.print (← Host.manual (.help words))
    return 0
  | .version => do
    Host.print versionText
    return 0

/-- The program puts out why it runs no command, or runs the one that is asked for. -/
theorem ran_eq (cipher : FileCipher) (words : List String) (w : World) :
    ran cipher words w = match asked words w with
      | .error stop => putOut words stop w
      | .ok invocation => runAsked cipher invocation w := by
  have hconfig : (Host.envValue? configVariable : StateM World (Option String)) w = (w.envValue? configVariable, w) := rfl
  have hkeyDir : (Host.envValue? keyDirVariable : StateM World (Option String)) w = (w.envValue? keyDirVariable, w) := rfl
  unfold ran runWith asked
  rw [operation_bind hconfig, operation_bind hkeyDir]
  cases Invocation.ofWords words (w.envValue? configVariable) (w.envValue? keyDirVariable) with
  | error stop => cases stop <;> rfl
  | ok invocation => rfl

/-- Where a command line asks for no command, nothing but a text is put out. -/
theorem files_of_ran_error (cipher : FileCipher) {stop : Stop} (h : asked words w = .error stop) : (ran cipher words w).2.files = w.files := by
  rw [ran_eq, h]
  cases stop <;> rfl

theorem runTelling_eq (cipher : FileCipher) (style : Style) (invocation : Invocation) (w : World) :
    runTelling cipher style invocation w =
      match outcome (execute cipher style invocation) w with
      | (.ok (), after) => (0, after)
      | (.error failure, after) => (1, (outcome (tellFailure style failure) after).2) := by
  rcases hexecute : outcome (execute cipher style invocation) w with ⟨failure | done, after⟩
  · exact operation_bind hexecute
  · exact operation_bind hexecute

/-- A command is run where the world is as before but for what is told of events, and a failure is told. -/
theorem ran_eq_of_asked (h : asked words w = .ok invocation) :
    ∃ style listening, w.Undisturbed listening ∧ ran cipher words w =
      match outcome (execute cipher style invocation) listening with
      | (.ok (), after) => (0, after)
      | (.error failure, after) => (1, (outcome (tellFailure style failure) after).2) := by
  have hrun (filter : Log.Filter) : (do
      Host.listen filter
      runTelling cipher (← Style.ofEnvironment) invocation : StateM World UInt8) w =
        runTelling cipher ((Style.ofEnvironment : StateM World Style) { w with filter := filter }).1 invocation
          { w with filter := filter } := rfl
  have hfilter : runAsked cipher invocation w = (do
      Host.listen ((logFilter invocation.isVerbose : StateM World Log.Filter) w).1
      runTelling cipher (← Style.ofEnvironment) invocation : StateM World UInt8) w := rfl
  rw [ran_eq, h]
  dsimp only
  rw [hfilter, hrun, runTelling_eq]
  exact ⟨_, { w with filter := ((logFilter invocation.isVerbose : StateM World Log.Filter) w).1 },
    ⟨⟨rfl, rfl, rfl, rfl⟩, rfl, rfl, rfl⟩, rfl⟩

/-- With settings in effect, what is executed is the command under them. -/
theorem execute_eq {style : Style} {settings : Settings} {listening : World} (hlistening : w.Undisturbed listening)
    (h : settingsInEffect invocation w = .ok settings) :
    ∃ begun, w.Undisturbed begun ∧ outcome (execute cipher style invocation) listening =
      outcome (Context.run ⟨settings, invocation.asJson, cipher, style⟩ invocation.command) begun := by
  obtain ⟨loaded, hloaded, rfl⟩ := Outcome.exists_of_map h
  have hread := reads_settings invocation.config
  have hfound : (outcome (Settings.load invocation.config) listening).1 = .ok loaded :=
    (hread.outcome_eq hlistening.toLooksLike).trans hloaded
  have hload {rest : Settings → Run (StateM World) Unit} : outcome (Settings.load invocation.config >>= rest) listening =
      outcome (rest loaded) (outcome (Settings.load invocation.config) listening).2 := outcome_bind_ok (Prod.ext hfound rfl)
  have hbegun := hlistening.trans (hread.undisturbed listening)
  unfold execute
  cases invocation.command with
  | completions shell => exact ⟨listening, hlistening, rfl⟩
  | _ => exact ⟨_, hbegun, hload⟩

theorem files_tellFailure (style : Style) (failure : Failure) (w : World) :
    (outcome (tellFailure style failure) w).2.files = w.files := by
  unfold tellFailure
  refine (spares_complain _).bind (fun _ => ?_) w
  cases hintFor failure with
  | none => exact fun w => rfl
  | some hint => exact spares_complain _

/-- A command line with settings in effect comes to what its command comes to. -/
theorem ran_cases {settings : Settings} (hasked : asked words w = .ok invocation)
    (hsettings : settingsInEffect invocation w = .ok settings) (h : ran cipher words w = (code, after)) :
    ∃ style begun result ended, w.Undisturbed begun ∧
      outcome (Context.run ⟨settings, invocation.asJson, cipher, style⟩ invocation.command) begun = (result, ended) ∧
      after.files = ended.files ∧ (result = .ok () ∧ code = 0 ∧ after = ended ∨ (∃ failure, result = .error failure) ∧ code = 1) := by
  obtain ⟨style, listening, hlistening, hran⟩ := ran_eq_of_asked hasked
  obtain ⟨begun, hbegun, hexecute⟩ := execute_eq hlistening hsettings
  rw [h, hexecute] at hran
  rcases hrun : outcome (Context.run ⟨settings, invocation.asJson, cipher, style⟩ invocation.command) begun with ⟨result, ended⟩
  rw [hrun] at hran
  refine ⟨style, begun, result, ended, hbegun, hrun, ?_⟩
  cases result with
  | ok done =>
    obtain ⟨rfl, rfl⟩ := Prod.mk.inj hran
    exact ⟨rfl, Or.inl ⟨rfl, rfl, rfl⟩⟩
  | error failure =>
    obtain ⟨rfl, rfl⟩ := Prod.mk.inj hran
    exact ⟨files_tellFailure style failure ended, Or.inr ⟨⟨failure, rfl⟩, rfl⟩⟩

end CommandLine

end SealedConfig
