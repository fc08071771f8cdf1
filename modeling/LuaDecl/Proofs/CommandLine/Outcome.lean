import LuaDecl.CommandLine.Outcome
import LuaDecl.Proofs.Generation.Result
import Mathlib.Data.List.Basic

/-!
# What a command tells

The exit code, the output and the error of a command say which of its two steps failed, the loading
of the configuration or the run, and a command that fails changes no file, unless a device did not
take all of its output (`run_tells_outcome`). None of this depends on how much is logged. A log
filter that breaks a character in two is the one thing that ends a command before its steps
(`run_breaks_character`).
-/

namespace LuaDecl.CommandLine

open FileSystem

namespace LogFilter

/-- The text from the environment, if there is one, breaks no character in two. -/
def IsReadable (environment : Option String) : Prop :=
  ∀ text, environment = some text → read text ≠ .error .brokenCharacter

theorem exists_choose?_eq_some {environment : Option String} (h : IsReadable environment)
    (verbosity : Nat) : ∃ filter, choose? verbosity environment = some filter := by
  unfold choose?
  cases environment with
  | none => exact ⟨_, rfl⟩
  | some text =>
    rw [Option.map_some]
    cases found : read text with
    | ok filter => exact ⟨_, rfl⟩
    | error fault =>
      cases fault with
      | malformed => exact ⟨_, rfl⟩
      | brokenCharacter => exact absurd found (h text rfl)

/-! ### Verbosity -/

/-- The threshold of a verbosity. -/
def thresholdOf : (verbosity : Nat) → Threshold
  | 0 => .warn
  | 1 => .info
  | _ => .debug

theorem ofVerbosity_eq (verbosity : Nat) :
    ofVerbosity verbosity = [⟨"luastub", none, false, thresholdOf verbosity⟩,
      ⟨"luastub_core", none, false, thresholdOf verbosity⟩] := by
  unfold ofVerbosity thresholdOf
  rfl

theorem rank_thresholdOf (verbosity : Nat) :
    (thresholdOf verbosity).rank = 2 + min verbosity 2 := by
  match verbosity with
  | 0 | 1 => rfl
  | more + 2 => simp [thresholdOf, Threshold.rank]

/-- The best directive after some more is the one before or among them. -/
theorem mem_of_foldl_outranks (best : Option Directive) (later : LogFilter) :
    (later.foldl (fun best d => if best.all d.outranks then some d else best) best = best ∧
        (best = none → later = [])) ∨
      ∃ d ∈ later,
        later.foldl (fun best d => if best.all d.outranks then some d else best) best =
          some d := by
  induction later generalizing best with
  | nil => exact Or.inl ⟨rfl, fun _ => rfl⟩
  | cons first rest ih =>
    rw [List.foldl_cons]
    by_cases counts : best.all first.outranks = true
    · rw [if_pos counts]
      rcases ih (some first) with ⟨kept, -⟩ | ⟨d, member, found⟩
      · exact Or.inr ⟨first, List.mem_cons_self, kept⟩
      · exact Or.inr ⟨d, List.mem_cons_of_mem first member, found⟩
    · rw [if_neg counts]
      rcases ih best with ⟨kept, -⟩ | ⟨d, member, found⟩
      · refine Or.inl ⟨kept, ?_⟩
        -- With nothing chosen yet, the first directive would have counted.
        rintro rfl
        exact absurd rfl counts
      · exact Or.inr ⟨d, List.mem_cons_of_mem first member, found⟩

/-- One of the directives about an event decides, if there is one. -/
theorem exists_mem_directive? {filter : LogFilter} {event : Event}
    (concerned : filter.filter (·.concerns event) ≠ []) :
    ∃ d ∈ filter, filter.directive? event = some d := by
  rcases mem_of_foldl_outranks none (filter.filter (·.concerns event)) with
    ⟨-, empty⟩ | ⟨d, member, found⟩
  · exact absurd (empty rfl) concerned
  · exact ⟨d, (List.mem_filter.mp member).1, found⟩

/-- Every event is about a part of the program. -/
theorem isPrefixOf_target (event : Event) :
    "luastub".toList.isPrefixOf event.target.toList = true := by
  have named : event.target ∈
      ["luastub", "luastub_core", "luastub_core::aggregate", "luastub_core::scan"] := by
    cases event <;> simp [Event.target]
  simp only [List.mem_cons, List.not_mem_nil, or_false] at named
  rcases named with named | named | named | named <;> rw [named] <;> decide

/-- A verbosity shows the events that pass its threshold. -/
theorem shows_ofVerbosity (verbosity : Nat) (event : Event) :
    (ofVerbosity verbosity).shows event = (thresholdOf verbosity).shows event.level := by
  have concerned : (ofVerbosity verbosity).filter (·.concerns event) ≠ [] := by
    rw [ofVerbosity_eq, List.filter_cons_of_pos]
    · exact List.cons_ne_nil _ _
    · simp only [Directive.concerns, isPrefixOf_target, Bool.not_false, Option.all_none,
        Bool.and_self]
  obtain ⟨d, member, found⟩ := exists_mem_directive? concerned
  have threshold : d.threshold = thresholdOf verbosity := by
    rw [ofVerbosity_eq] at member
    simp only [List.mem_cons, List.not_mem_nil, or_false] at member
    rcases member with rfl | rfl <;> rfl
  rw [shows, found, ← threshold]

/-- More verbosity shows no less. -/
theorem shows_ofVerbosity_mono {less more : Nat} (h : less ≤ more) {event : Event}
    (shown : (ofVerbosity less).shows event = true) :
    (ofVerbosity more).shows event = true := by
  have ranks : (thresholdOf less).rank ≤ (thresholdOf more).rank := by
    rw [rank_thresholdOf, rank_thresholdOf]
    omega
  rw [shows_ofVerbosity] at shown ⊢
  cases level : event.level <;> rw [level] at shown <;>
    exact decide_eq_true (Nat.le_trans (of_decide_eq_true shown) ranks)

end LogFilter

/-! ### Outcomes -/

/-- What a command shows of itself besides its log: exit code, output, error and file system. -/
def Outcome.visible (o : Outcome) : Nat × String × Option String × FileSystem :=
  (o.exitCode, o.output, o.errorText?, o.fileSystem)

variable {fs : FileSystem} {arguments others : List String} {environment : Option String}
  {options : Options}

/-- The result of the two steps, as the command reports it. -/
def report (options : Options) : Except RunError Summary → Except Failure String
  | .ok summary => .ok (summaryText options.json summary)
  | .error error => .error (.run error)

/-- A readable log filter decides about the log and about nothing else. -/
theorem run_eq (fs : FileSystem) (parsed : read arguments = .ok (.run options))
    (readable : LogFilter.IsReadable environment) :
    ∃ filter, LogFilter.choose? options.verbosity environment = some filter ∧
      run fs arguments environment =
        { result := report options (runOptions fs options).value.2
          shown := (runOptions fs options).events.filter filter.shows
          fileSystem := (runOptions fs options).value.1 } := by
  obtain ⟨filter, chosen⟩ := LogFilter.exists_choose?_eq_some readable options.verbosity
  refine ⟨filter, chosen, ?_⟩
  simp only [run, parsed, chosen]
  cases (runOptions fs options).value.2 <;> rfl

theorem run_of_error {error : RunError} (parsed : read arguments = .ok (.run options))
    (readable : LogFilter.IsReadable environment)
    (fails : (runOptions fs options).value.2 = .error error) :
    (run fs arguments environment).exitCode = 1 ∧
      (run fs arguments environment).output = "" ∧
      (run fs arguments environment).errorText? = some ("Error: " ++ error.message) ∧
      (run fs arguments environment).fileSystem = (runOptions fs options).value.1 := by
  obtain ⟨filter, -, ran⟩ := run_eq fs parsed readable
  simp only [ran, fails, report, Outcome.exitCode, Outcome.output, Outcome.errorText?, and_self]

theorem run_of_ok {summary : Summary} (parsed : read arguments = .ok (.run options))
    (readable : LogFilter.IsReadable environment)
    (succeeds : (runOptions fs options).value.2 = .ok summary) :
    (run fs arguments environment).exitCode = 0 ∧
      (run fs arguments environment).output =
        (if options.json then summary.json else summary.line) ++ "\n" ∧
      (run fs arguments environment).errorText? = none ∧
      (run fs arguments environment).fileSystem = (runOptions fs options).value.1 := by
  obtain ⟨filter, -, ran⟩ := run_eq fs parsed readable
  simp only [ran, succeeds, report, summaryText, Outcome.exitCode, Outcome.output,
    Outcome.errorText?, and_self]

theorem value_runOptions_of_error {error : RunError}
    (loaded : (ScanConfig.load fs options.config (workingDirectoryPath fs)).value =
      .error error) :
    (runOptions fs options).value = (fs, .error error) := by
  simp only [runOptions, Logged.value_bind, loaded, Logged.value_pure]

theorem value_runOptions_of_ok {config : ScanConfig}
    (loaded : (ScanConfig.load fs options.config (workingDirectoryPath fs)).value =
      .ok config) :
    (runOptions fs options).value =
      (Generation.generate fs config options.inputs options.output).value := by
  simp only [runOptions, Logged.value_bind, loaded]

/-- The log filter has no part in what else a command shows. -/
theorem visible_run_verbosity {environment' : Option String} {verbosity : Nat}
    (parsed : read arguments = .ok (.run options))
    (parsed' : read others = .ok (.run { options with verbosity }))
    (readable : LogFilter.IsReadable environment)
    (readable' : LogFilter.IsReadable environment') :
    (run fs others environment').visible = (run fs arguments environment).visible := by
  obtain ⟨filter, -, ran⟩ := run_eq fs parsed readable
  obtain ⟨filter', -, ran'⟩ := run_eq fs parsed' readable'
  rw [ran, ran']
  rfl

/-- With no log filter from the environment, more verbosity shows no less. -/
theorem levels_sublist_of_verbosity {verbosity : Nat}
    (parsed : read arguments = .ok (.run options))
    (parsed' : read others = .ok (.run { options with verbosity }))
    (more : options.verbosity ≤ verbosity) :
    ((run fs arguments none).shown.map Event.level).Sublist
      ((run fs others none).shown.map Event.level) := by
  have unset : LogFilter.IsReadable none := by simp [LogFilter.IsReadable]
  obtain ⟨less, chosen, ran⟩ := run_eq fs parsed unset
  obtain ⟨rest, chosen', ran'⟩ := run_eq fs parsed' unset
  obtain rfl : LogFilter.ofVerbosity options.verbosity = less := Option.some.inj chosen
  obtain rfl : LogFilter.ofVerbosity verbosity = rest := Option.some.inj chosen'
  rw [ran, ran']
  exact (List.monotone_filter_right _ fun event => LogFilter.shows_ofVerbosity_mono more).map _

/-- The outcome of a command whose log filter breaks no character. The exit code is 0 exactly if the
configuration is loaded and the run succeeds, and then the output is the summary. Otherwise it is 1,
the error of the step that failed is printed, and no file has changed, unless the output was opened
and its device did not take all of the stub file; nothing at all has changed if the configuration
was not loaded. How much is logged makes no difference to this, and more verbosity shows no less. -/
theorem run_tells_outcome (fs : FileSystem) (parsed : read arguments = .ok (.run options))
    (readable : LogFilter.IsReadable environment) :
    let outcome := run fs arguments environment
    let loaded := (ScanConfig.load fs options.config (workingDirectoryPath fs)).value
    let generated (config : ScanConfig) :=
      (Generation.generate fs config options.inputs options.output).value
    (outcome.exitCode = 0 ↔
      ∃ config summary, loaded = .ok config ∧ (generated config).2 = .ok summary) ∧
    (∀ config summary, loaded = .ok config → (generated config).2 = .ok summary →
      outcome.output = (if options.json then summary.json else summary.line) ++ "\n" ∧
        outcome.errorText? = none ∧ outcome.fileSystem = (generated config).1) ∧
    (∀ error, loaded = .error error →
      outcome.exitCode = 1 ∧ outcome.output = "" ∧
        outcome.errorText? = some ("Error: " ++ error.message) ∧ outcome.fileSystem = fs) ∧
    (∀ config error, loaded = .ok config → (generated config).2 = .error error →
      outcome.exitCode = 1 ∧ outcome.output = "" ∧
        outcome.errorText? = some ("Error: " ++ error.message) ∧
        ((∀ location content, outcome.fileSystem.entryAt? location = some (.file content) ↔
            fs.entryAt? location = some (.file content)) ∨
          Generation.CutShort fs outcome.fileSystem options.output
            (Generation.stubOf fs config options.inputs) error)) ∧
    (∀ others verbosity filter, read others = .ok (.run { options with verbosity }) →
      LogFilter.IsReadable filter → (run fs others filter).visible = outcome.visible) ∧
    ∀ others verbosity, read others = .ok (.run { options with verbosity }) →
      options.verbosity ≤ verbosity →
      ((run fs arguments none).shown.map Event.level).Sublist
        ((run fs others none).shown.map Event.level) := by
  intro outcome loaded generated
  refine ⟨?_, ?_, ?_, ?_, ?_, ?_⟩
  · constructor
    · intro code
      cases settled : loaded with
      | error error =>
        have value := value_runOptions_of_error settled
        have one : outcome.exitCode = 1 :=
          (run_of_error parsed readable (congrArg Prod.snd value)).1
        omega
      | ok config =>
        have value := value_runOptions_of_ok settled
        cases result : (generated config).2 with
        | error error =>
          have fails := (congrArg Prod.snd value).trans result
          have one : outcome.exitCode = 1 := (run_of_error parsed readable fails).1
          omega
        | ok summary => exact ⟨config, summary, rfl, result⟩
    · rintro ⟨config, summary, settled, result⟩
      have value := value_runOptions_of_ok settled
      exact (run_of_ok parsed readable ((congrArg Prod.snd value).trans result)).1
  · intro config summary settled result
    have value := value_runOptions_of_ok settled
    obtain ⟨-, output, error, left⟩ :=
      run_of_ok parsed readable ((congrArg Prod.snd value).trans result)
    exact ⟨output, error, left.trans (congrArg Prod.fst value)⟩
  · intro error settled
    have value := value_runOptions_of_error settled
    obtain ⟨code, output, text, left⟩ :=
      run_of_error parsed readable (congrArg Prod.snd value)
    exact ⟨code, output, text, left.trans (congrArg Prod.fst value)⟩
  · intro config error settled result
    have value := value_runOptions_of_ok settled
    obtain ⟨code, output, text, left⟩ :=
      run_of_error parsed readable ((congrArg Prod.snd value).trans result)
    refine ⟨code, output, text, ?_⟩
    rw [left, value]
    exact Generation.file_iff_or_cutShort_of_error result
  · intro others verbosity environment' parsed' readable'
    exact visible_run_verbosity parsed parsed' readable readable'
  · intro others verbosity parsed' more
    exact levels_sublist_of_verbosity parsed parsed' more

/-- A directory with one source. -/
def oneSource : FileSystem where
  root := [("a.lua", .file "function f() end".toUTF8)]
  workingDirectory := []

/-- The options of a run over the one source. -/
def oneSourceOptions : Options :=
  ⟨["a.lua"], "o.lua", none, false, 0⟩

theorem read_oneSource : read ["a.lua", "--out", "o.lua"] = .ok (.run oneSourceOptions) := by
  decide +kernel

/-- A run with a log filter from the environment. -/
theorem run_tells_outcome_debug :
    ∃ config summary,
      (ScanConfig.load oneSource none (workingDirectoryPath oneSource)).value = .ok config ∧
        (Generation.generate oneSource config ["a.lua"] "o.lua").value.2 = .ok summary ∧
        (run oneSource ["a.lua", "--out", "o.lua"] (some "luastub=debug")).output =
          summary.line ++ "\n" := by
  have readable : LogFilter.IsReadable (some "luastub=debug") := by
    intro text equal broken
    obtain rfl := Option.some.inj equal
    have fine : LogFilter.read "luastub=debug" ≠ .error .brokenCharacter := by decide +kernel
    exact fine broken
  have code : (run oneSource ["a.lua", "--out", "o.lua"] (some "luastub=debug")).exitCode = 0 := by
    decide +kernel
  obtain ⟨exit, success, -⟩ := run_tells_outcome oneSource read_oneSource readable
  obtain ⟨config, summary, loaded, generated⟩ := exit.mp code
  exact ⟨config, summary, loaded, generated, (success config summary loaded generated).1⟩

/-- A blank of three bytes before a directive shifts the cut into it. The command breaks off, though
its verbosity is raised, so that the log filter should not count, and without it the run succeeds.
-/
theorem run_breaks_character :
    (run oneSource ["a.lua", "--out", "o.lua", "-v"] none).exitCode = 0 ∧
      (run oneSource ["a.lua", "--out", "o.lua", "-v"] (some "\u3000a=")).exitCode = 101 ∧
      ∃ config, (ScanConfig.load oneSource none (workingDirectoryPath oneSource)).value =
          .ok config ∧
        (Generation.generate oneSource config ["a.lua"] "o.lua").value.2.isOk = true :=
  ⟨by decide +kernel, by decide +kernel, .default, rfl, by decide +kernel⟩

end LuaDecl.CommandLine
