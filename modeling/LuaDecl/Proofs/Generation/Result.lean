import LuaDecl.Proofs.Generation.Writing
import LuaDecl.Proofs.Stub.Decoding

/-!
# What a run leaves behind

A run that succeeds leaves the stub file of its sources at the output, of the sources as they were
before the run, also where the output is one of them, lies below an input or is a link
(`generate_leaves_stub`). All it does to the tree is to make directories and to write one file, and
a run that fails leaves every file as it was, unless a device cut its output short
(`grows_generate`).
-/

namespace LuaDecl.Generation

open FileSystem

variable {fs after : FileSystem} {config : ScanConfig} {inputs : List String} {output : String}

/-! ### Reading -/

/-- The texts of the files that can be read, in order. -/
def sources (fs : FileSystem) (files : List String) : List String :=
  files.filterMap fun path => (readSource fs path).toOption

/-- The number of the files that cannot be read. -/
def unreadable (fs : FileSystem) (files : List String) : Nat :=
  files.countP fun path => (readSource fs path).toOption.isNone

theorem length_sources_add_unreadable (fs : FileSystem) (files : List String) :
    (sources fs files).length + unreadable fs files = files.length := by
  induction files with
  | nil => rfl
  | cons path rest ih =>
    cases readable : (readSource fs path).toOption with
    | none =>
      simp only [sources, unreadable, List.filterMap_cons, List.countP_cons, readable,
        List.length_cons, Option.isNone_none, if_true] at ih ⊢
      omega
    | some source =>
      simp only [sources, unreadable, List.filterMap_cons, List.countP_cons, readable,
        List.length_cons, Option.isNone_some, Bool.false_eq_true, if_false] at ih ⊢
      omega

theorem value_collectFrom (c : Catalog) (skipped : Nat) (files : List String) :
    (collectFrom fs c skipped files).value =
      .ok ((sources fs files).foldl
        (fun c source => (c.merge (Extraction.ofSource source)).value.1) c,
        skipped + unreadable fs files) := by
  induction files generalizing c skipped with
  | nil => rfl
  | cons path rest ih =>
    cases readable : readSource fs path with
    | ok source =>
      simp only [collectFrom_of_ok readable, Logged.value_bind, ih, sources, unreadable,
        readable, List.filterMap_cons, List.countP_cons, Except.toOption, List.foldl_cons,
        Option.isNone_some, Bool.false_eq_true, if_false, Nat.add_zero]
    | error error =>
      simp only [collectFrom_of_error readable, Logged.value_bind, ih, sources, unreadable,
        readable, List.filterMap_cons, List.countP_cons, Except.toOption, Option.isNone_none,
        if_true, Nat.add_assoc, Nat.add_comm 1]

/-- A collection ends with the catalog of the files that can be read. -/
theorem value_collect (fs : FileSystem) (files : List String) :
    (collect fs files).value = .ok (Catalog.ofSources (sources fs files), unreadable fs files) := by
  rw [collect, value_collectFrom, Nat.zero_add]
  rfl

/-! ### Runs -/

/-- The text that a run writes. -/
def stubOf (fs : FileSystem) (config : ScanConfig) (inputs : List String) : String :=
  Stub.render (Catalog.ofSources (sources fs (Discovery.discover fs config inputs).value))

theorem value_generate (fs : FileSystem) (config : ScanConfig) (inputs : List String)
    (output : String) :
    (generate fs config inputs output).value =
      match writeFile fs output (stubOf fs config inputs) with
      | (after, .error error) => (after, .error error)
      | (after, .ok ()) =>
        let files := (Discovery.discover fs config inputs).value
        (after, .ok ((Catalog.ofSources (sources fs files)).summary output
          (files.length - unreadable fs files) (unreadable fs files))) := by
  simp only [generate, Logged.value_bind, value_collect, stubOf]
  generalize writeFile fs output _ = outcome
  cases outcome with
  | mk after result => cases result <;> rfl

/-- A run makes directories and, if it succeeds, writes the file that the output leads to. -/
theorem grows_generate (fs : FileSystem) (config : ScanConfig) (inputs : List String)
    (output : String) :
    match (generate fs config inputs output).value with
    | (after, .ok _) => ∃ written, Grows fs after (some written) ∧
        after.resolve output = .ok (.present written (.file (stubOf fs config inputs).toUTF8))
    | (after, .error error) =>
      Grows fs after none ∨ CutShort fs after output (stubOf fs config inputs) error := by
  have wrote := grows_writeFile fs output (stubOf fs config inputs)
  rw [value_generate]
  cases result : writeFile fs output (stubOf fs config inputs) with
  | mk after result' =>
    rw [result] at wrote
    cases result' with
    | error error => exact wrote
    | ok _ => exact wrote

/-- A run that fails changes no file, unless its output was cut short. -/
theorem file_iff_or_cutShort_of_error {error : RunError}
    (fails : (generate fs config inputs output).value.2 = .error error) :
    (∀ location content,
      (generate fs config inputs output).value.1.entryAt? location = some (.file content) ↔
        fs.entryAt? location = some (.file content)) ∨
      CutShort fs (generate fs config inputs output).value.1 output (stubOf fs config inputs)
        error := by
  have grown := grows_generate fs config inputs output
  cases run : (generate fs config inputs output).value with
  | mk after result =>
    rw [run] at fails grown
    obtain rfl : result = .error error := fails
    refine grown.imp (fun none location content => ?_) id
    exact none.file_iff (Option.some_ne_none location).symm

/-- What a successful run leaves behind. The output holds the stub file of the sources as they were
before the run, whether or not it is one of them. The summary counts what that text declares, and
each discovered file as scanned or skipped. All other files are as they were. -/
theorem generate_leaves_stub {summary : Summary}
    (succeeds : (generate fs config inputs output).value = (after, .ok summary)) :
    let files := (Discovery.discover fs config inputs).value
    let text := Stub.render (Catalog.ofSources (sources fs files))
    after.read output = .ok text.toUTF8 ∧
      (∃ tables functions, Stub.Declares text tables functions) ∧
      (∀ tables functions, Stub.Declares text tables functions →
        summary.tables = tables.length ∧ summary.globals = (functions .global).length ∧
          summary.dotMethods = (functions .dot).length ∧
          summary.colonMethods = (functions .colon).length) ∧
      summary.filesScanned = (sources fs files).length ∧
      summary.filesScanned + summary.filesSkipped = files.length ∧
      ∃ written, after.resolve output = .ok (.present written (.file text.toUTF8)) ∧
        ∀ location, location ≠ written → ∀ content,
          after.entryAt? location = some (.file content) ↔
            fs.entryAt? location = some (.file content) := by
  intro files text
  have grown := grows_generate fs config inputs output
  rw [succeeds] at grown
  obtain ⟨written, grown, resolved⟩ := grown
  have counted := length_sources_add_unreadable fs files
  have declares := (Catalog.sound_ofSources (sources fs files)).declares
  have summarized : summary = (Catalog.ofSources (sources fs files)).summary output
      (files.length - unreadable fs files) (unreadable fs files) := by
    rw [value_generate] at succeeds
    split at succeeds
    · cases (Prod.mk.inj succeeds).2
    · exact (Except.ok.inj (Prod.mk.inj succeeds).2).symm
  refine ⟨?_, ⟨_, _, declares⟩, ?_, ?_, ?_, written, resolved, ?_⟩
  · rw [FileSystem.read, resolved]
    rfl
  · intro tables functions read
    obtain ⟨rfl, rfl⟩ := declares.unique read
    rw [summarized]
    refine ⟨?_, rfl, rfl, rfl⟩
    simp [Catalog.summary, SortedMap.size, SortedSet.toList, SortedMap.keys]
  · rw [summarized]
    simp only [Catalog.summary]
    omega
  · rw [summarized]
    simp only [Catalog.summary]
    omega
  · intro location other content
    exact grown.file_iff fun equal => other (Option.some.inj equal).symm

/-- A source, and a link to it. -/
def linkedSource : FileSystem where
  root := [("a.lua", .file "function f() end\n-- the end".toUTF8), ("out.lua", .link "a.lua")]
  workingDirectory := []

/-- A run whose output is a link to its only source. -/
theorem generate_leaves_stub_link :
    ∃ after summary, (generate linkedSource .default ["a.lua"] "out.lua").value =
        (after, .ok summary) ∧
      after.read "out.lua" = .ok "---@meta\nfunction f(...) end\n".toUTF8 := by
  have succeeds : (generate linkedSource .default ["a.lua"] "out.lua").value.2.isOk = true := by
    decide +kernel
  have written : Stub.render (Catalog.ofSources (sources linkedSource
      (Discovery.discover linkedSource .default ["a.lua"]).value)) =
        "---@meta\nfunction f(...) end\n" := by decide +kernel
  cases run : (generate linkedSource .default ["a.lua"] "out.lua").value with
  | mk after result =>
    cases result with
    | error error => simp [run, Except.isOk, Except.toBool] at succeeds
    | ok summary =>
      have left := (generate_leaves_stub run).1
      rw [written] at left
      exact ⟨after, summary, rfl, left⟩

end LuaDecl.Generation
