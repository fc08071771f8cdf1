import LuaDecl.Proofs.Discovery.Growth
import LuaDecl.Proofs.Generation.Result
import LuaDecl.Proofs.Stub.Order
import LuaDecl.Proofs.Stub.Rereading
import LuaDecl.Proofs.Text.Utf8

/-!
# Running twice

A second run right after a first scans the stub file that the first wrote, if that is a source. It
writes the same text again as long as it finds no other files than the first run, and reads in the
stub file nothing but what is recorded (`generate_isStable`). Each of these conditions is needed: a
directory that the first run makes may open the way to more files, a definition may stand between
the parentheses of another, and the stub file may hide a function (`generate_not_isStable`).

The argument goes key by key. The first run takes a definition from some file; the second finds that
file or the stub file no later, what it finds before is silent about the key, as it was in the first
run, and the stub file says what was taken.
-/

namespace LuaDecl.Generation

open Catalog Discovery FileSystem

variable {fs after : FileSystem} {config : ScanConfig} {inputs : List String} {output : String}
  {written : Location}

/-- The files that a run discovers. -/
def found (fs : FileSystem) (config : ScanConfig) (inputs : List String) : List String :=
  (discover fs config inputs).value

/-- The catalog that a run collects. -/
def collected (fs : FileSystem) (config : ScanConfig) (inputs : List String) : Catalog :=
  ofSources (sources fs (found fs config inputs))

/-- A second run right after a first leaves the output as the first run left it. -/
def IsStable (fs : FileSystem) (config : ScanConfig) (inputs : List String) (output : String) :
    Prop :=
  ∀ after summary, (generate fs config inputs output).value = (after, .ok summary) →
    ∀ last again, (generate after config inputs output).value = (last, .ok again) →
      ∃ bytes, after.read output = .ok bytes ∧ last.read output = .ok bytes

/-- What a second run finds right after a first run: no file that the first did not find, except for
the output; if it finds the output, in that nothing inside of parameters that is not recorded; and
if the first run found the output as well, in that all functions. -/
structure IsSettled (fs after : FileSystem) (config : ScanConfig) (inputs : List String)
    (output : String) : Prop where
  noneNew : ∀ path ∈ found after config inputs,
    path ∈ found fs config inputs ∨ after.resolve path = after.resolve output
  noneInside : (∃ path ∈ found after config inputs, after.resolve path = after.resolve output) →
    Stub.InnerRecorded (collected fs config inputs)
  noneHidden : (∃ path ∈ found fs config inputs, after.resolve path = after.resolve output) →
    ¬ Stub.HidesGlobal (collected fs config inputs)

/-! ### The tree after a run -/

theorem isTidy_makeParent (tidy : fs.IsTidy) (path : String) : (makeParent fs path).1.IsTidy := by
  rcases makeParent_cases path with stays | ⟨parent, -, -, made⟩
  · rwa [stays]
  · rw [made]
    exact tidy.makeDirectories parent

theorem isTidy_writeFile (tidy : fs.IsTidy) (path text : String) :
    (writeFile fs path text).1.IsTidy := by
  have made := isTidy_makeParent tidy path
  cases parent : makeParent fs path with
  | mk middle outcome =>
    rw [parent] at made
    cases outcome with
    | error error => rwa [writeFile, parent]
    | ok _ =>
      rw [writeFile_of_makeParent parent]
      exact made.write path text.toUTF8

/-- A run keeps the tree tidy. -/
theorem isTidy_generate (tidy : fs.IsTidy) (config : ScanConfig) (inputs : List String)
    (output : String) : (generate fs config inputs output).value.1.IsTidy := by
  have made := isTidy_writeFile tidy output (stubOf fs config inputs)
  rw [value_generate]
  split
  · next result => rwa [result] at made
  · next result => rwa [result] at made

/-- A run that succeeds leaves the text that it writes. -/
theorem read_of_generate {summary : Summary}
    (succeeds : (generate fs config inputs output).value = (after, .ok summary)) :
    after.read output = .ok (stubOf fs config inputs).toUTF8 := by
  have grown := grows_generate fs config inputs output
  rw [succeeds] at grown
  obtain ⟨written, -, resolved⟩ := grown
  exact read_eq_ok_iff.mpr ⟨written, resolved⟩

/-! ### What files say of a key -/

/-- The parameters of a file's first definition of a key. -/
def definition? (fs : FileSystem) (kind : Kind) (key path : String) : Option String :=
  (readSource fs path).toOption.bind fun source =>
    firstParams (Extraction.ofSource source).signatures kind key

theorem firstParams_sources (fs : FileSystem) (files : List String) (kind : Kind) (key : String) :
    firstParams (signaturesOf (sources fs files)) kind key =
      files.findSome? (definition? fs kind key) := by
  rw [signaturesOf, firstParams_flatMap, sources]
  induction files with
  | nil => rfl
  | cons path rest ih =>
    cases read : (readSource fs path).toOption with
    | none =>
      have silent : definition? fs kind key path = none := by rw [definition?, read]; rfl
      rw [List.filterMap_cons, read, List.findSome?_cons, silent]
      exact ih
    | some source =>
      have own : definition? fs kind key path =
          firstParams (Extraction.ofSource source).signatures kind key := by
        rw [definition?, read]
        rfl
      simp only [List.filterMap_cons, read, List.findSome?_cons, own, ih]

/-- A file that says something of a key has a path that is one. -/
theorem isUsable_of_definition? {path params : String} {kind : Kind} {key : String}
    (defined : definition? fs kind key path = some params) : IsUsable path := by
  refine Classical.byContradiction fun unusable => ?_
  obtain ⟨fault, failed⟩ := read_of_not_isUsable fs unusable
  rw [definition?, readSource, failed] at defined
  cases defined

section Rerun

variable {path : String} {location : Location} {kind : Kind} {key : String}
  (grown : Grows fs after (some written))
  (resolved : after.resolve output =
    .ok (.present written (.file (stubOf fs config inputs).toUTF8)))

include grown in
/-- A file other than the output says what it said. -/
theorem definition?_of_ne (known : fs.fileAt? path = some location) (apart : location ≠ written) :
    definition? after kind key path = definition? fs kind key path := by
  unfold definition? readSource
  by_cases usable : IsUsable path
  · obtain ⟨content, leads⟩ := fileAt?_eq_some_iff.mp known
    have stood : fs.entryAt? location = some (.file content) := leads.isIn
    have stands : after.entryAt? location = some (.file content) :=
      (grown.file_iff fun equal => apart (Option.some.inj equal).symm).mpr stood
    rw [FileSystem.read, FileSystem.read, resolve_of_fileAt? usable known stood,
      resolve_of_fileAt? usable (grown.fileAt? known) stands]
  · obtain ⟨fault, failed⟩ := read_of_not_isUsable fs usable
    obtain ⟨fault', fails⟩ := read_of_not_isUsable after usable
    rw [failed, fails]
    rfl

include resolved

/-- The output says what its stub file says. -/
theorem definition?_of_output (same : after.resolve path = after.resolve output) :
    definition? after kind key path =
      firstParams (Extraction.ofSource (stubOf fs config inputs)).signatures kind key := by
  have read : readSource after path = .ok (stubOf fs config inputs) := by
    rw [readSource, FileSystem.read, same, resolved]
    exact congrArg Except.ok (Text.Utf8.decodeLossy_toUTF8 _)
  rw [definition?, read]
  rfl

theorem resolve_eq_output (usable : IsUsable path) (known : after.fileAt? path = some written) :
    after.resolve path = after.resolve output := by
  rw [resolved]
  exact resolve_of_fileAt? usable known (resolve_eq_ok_iff.mp resolved).2.isIn

variable (tidy : fs.IsTidy) (settled : IsSettled fs after config inputs output)

include grown tidy settled

variable (kind key) in
/-- In the second run a file says nothing of a key, what the first run recorded, or what it said in
the first run. -/
theorem definition?_rerun (member : path ∈ found after config inputs) :
    definition? after kind key path = none ∨
      definition? after kind key path =
        firstParams (signaturesOf (sources fs (found fs config inputs))) kind key ∨
      path ∈ found fs config inputs ∧
        definition? after kind key path = definition? fs kind key path := by
  by_cases own : after.resolve path = after.resolve output
  · have stub := Stub.firstParams_render (settled.noneInside ⟨path, member, own⟩) kind key
    rw [definition?_of_output resolved own]
    exact stub.1.imp_right Or.inl
  · have old := (settled.noneNew path member).resolve_right own
    obtain ⟨location, known⟩ := exists_fileAt?_of_mem_discover tidy old
    by_cases here : location = written
    · subst here
      cases said : definition? after kind key path with
      | none => exact Or.inl rfl
      | some params =>
        have usable := isUsable_of_definition? said
        exact absurd (resolve_eq_output resolved usable (grown.fileAt? known)) own
    · exact Or.inr (Or.inr ⟨old, definition?_of_ne grown known here⟩)

variable (tidyAfter : after.IsTidy)

include tidyAfter

/-- Where a file is found that the first run took a definition from, the second run finds the
definition. -/
theorem definition?_of_kept {params kept : String} (old : path ∈ found fs config inputs)
    (defined : definition? fs kind key path = some params)
    (recorded : firstParams (signaturesOf (sources fs (found fs config inputs))) kind key =
      some params)
    (member : kept ∈ found after config inputs) (same : identity after kept = identity after path) :
    definition? after kind key kept = some params := by
  have usable := isUsable_of_definition? defined
  obtain ⟨location, known⟩ := exists_fileAt?_of_mem_discover tidy old
  obtain ⟨place, leads⟩ := exists_fileAt?_of_mem_discover tidyAfter member
  obtain rfl := fileAt?_eq_of_identity_eq tidyAfter leads (grown.fileAt? known) same
  -- A file that both runs found goes by the same path in both.
  have unchanged : kept ∈ found fs config inputs → kept = path := by
    intro oldKept
    rw [found, value_discover_of_grows tidy tidyAfter grown] at old oldKept
    exact eq_of_mem_firstPaths oldKept old same
  by_cases here : place = written
  · subst here
    have own := resolve_eq_output resolved usable (grown.fileAt? known)
    have stub : after.resolve kept = after.resolve output :=
      (settled.noneNew kept member).elim (fun oldKept => unchanged oldKept ▸ own) id
    have inner := settled.noneInside ⟨kept, member, stub⟩
    have visible := settled.noneHidden ⟨path, old, own⟩
    rw [definition?_of_output resolved stub, ← recorded]
    exact (Stub.firstParams_render inner kind key).2 visible
  · have other : after.resolve kept ≠ after.resolve output := by
      intro stub
      rw [resolved] at stub
      exact here (Option.some.inj (leads.symm.trans (fileAt?_of_resolve stub)))
    obtain rfl := unchanged ((settled.noneNew kept member).resolve_right other)
    rw [definition?_of_ne grown known here, defined]

/-- The second run takes the definitions that the first run took. -/
theorem firstParams_rerun (kind : Kind) (key : String) :
    firstParams (signaturesOf (sources after (found after config inputs))) kind key =
      firstParams (signaturesOf (sources fs (found fs config inputs))) kind key := by
  cases recorded : firstParams (signaturesOf (sources fs (found fs config inputs))) kind key with
  | none =>
    have silent := recorded
    rw [firstParams_sources, List.findSome?_eq_none_iff] at silent
    rw [firstParams_sources, List.findSome?_eq_none_iff]
    intro path member
    rcases definition?_rerun kind key grown resolved tidy settled member with
      nothing | stub | ⟨old, same⟩
    · exact nothing
    · exact stub.trans recorded
    · exact same.trans (silent path old)
  | some params =>
    have taken := recorded
    rw [firstParams_sources, List.findSome?_eq_some_iff] at taken
    obtain ⟨before, path, later, split, defined, silent⟩ := taken
    obtain ⟨front, kept, rest, again, same, earlier⟩ :=
      exists_split_of_grows tidy tidyAfter grown split
    have member : kept ∈ found after config inputs := by simp [found, again]
    have own : definition? after kind key kept = some params :=
      definition?_of_kept grown resolved tidy settled tidyAfter (by simp [split]) defined recorded
        member same
    -- What is found before it says the same or nothing.
    have agree : front.findSome? (definition? after kind key) = none ∨
        front.findSome? (definition? after kind key) = some params := by
      cases first : front.findSome? (definition? after kind key) with
      | none => exact Or.inl rfl
      | some other =>
        obtain ⟨path, inFront, defines⟩ := List.exists_of_findSome?_eq_some first
        have member : path ∈ found after config inputs := by simp [found, again, inFront]
        rcases definition?_rerun kind key grown resolved tidy settled member with
          nothing | stub | ⟨old, same⟩
        · rw [nothing] at defines
          cases defines
        · rw [stub, recorded] at defines
          exact Or.inr defines.symm
        · rw [same, silent path (earlier path inFront old)] at defines
          cases defines
    rw [firstParams_sources, found, again, List.findSome?_append, List.findSome?_cons, own]
    rcases agree with none | some
    · rw [none]
      rfl
    · rw [some]
      rfl

end Rerun

/-! ### The second run -/

/-- Where a second run finds nothing else, it leaves the output as the first run left it. -/
theorem generate_isStable (tidy : fs.IsTidy)
    (settled : ∀ after summary, (generate fs config inputs output).value = (after, .ok summary) →
      IsSettled fs after config inputs output) :
    IsStable fs config inputs output := by
  intro after summary first last again second
  have tidyAfter : after.IsTidy := by
    have made := isTidy_generate tidy config inputs output
    rwa [first] at made
  have grown := grows_generate fs config inputs output
  rw [first] at grown
  obtain ⟨written, grown, resolved⟩ := grown
  have same : stubOf after config inputs = stubOf fs config inputs := by
    refine congrArg Stub.render (ofSources_eq_of_firstParams_eq ?_)
    exact firstParams_rerun grown resolved tidy (settled after summary first) tidyAfter
  exact ⟨_, read_of_generate first, same ▸ read_of_generate second⟩

/-- A source and no stub file. -/
def sourceTree : FileSystem where
  root := [("a.lua", .file "function f(x) end\nt.g = function() end".toUTF8)]
  workingDirectory := []

/-- A stub file that the second run scans. -/
theorem generate_isStable_scanned :
    IsStable sourceTree .default ["a.lua", "o.lua"] "o.lua" := by
  have tidy : sourceTree.IsTidy := by
    refine isTidy_of_root ⟨by decide, fun name member => ?_⟩ (by simp)
    obtain rfl := List.mem_singleton.mp member
    exact ⟨by decide +kernel, by decide⟩
  refine generate_isStable tidy fun after summary run => ?_
  obtain rfl : (generate sourceTree .default ["a.lua", "o.lua"] "o.lua").value.1 = after := by
    rw [run]
  refine ⟨?_, fun _ => by decide +kernel, fun _ => by decide +kernel⟩
  have second : found (generate sourceTree .default ["a.lua", "o.lua"] "o.lua").value.1 .default
      ["a.lua", "o.lua"] = ["a.lua", "o.lua"] := by decide +kernel
  have first : found sourceTree .default ["a.lua", "o.lua"] = ["a.lua"] := by decide +kernel
  intro path member
  rw [second] at member
  rw [first]
  rcases List.mem_cons.mp member with rfl | last
  · exact Or.inl List.mem_cons_self
  · exact Or.inr (congrArg _ (List.mem_singleton.mp last))

/-! ### Runs that differ -/

/-- A run is not stable if it and the next succeed and write different texts. -/
theorem not_isStable (first : (generate fs config inputs output).value.2.isOk = true)
    (second : (generate (generate fs config inputs output).value.1 config inputs
      output).value.2.isOk = true)
    (differ : stubOf (generate fs config inputs output).value.1 config inputs ≠
      stubOf fs config inputs) : ¬ IsStable fs config inputs output := by
  intro stable
  have succeeds {fs : FileSystem} (ok : (generate fs config inputs output).value.2.isOk = true) :
      ∃ summary, (generate fs config inputs output).value =
        ((generate fs config inputs output).value.1, .ok summary) := by
    cases run : (generate fs config inputs output).value with
    | mk after result =>
      cases result with
      | error error => simp [run, Except.isOk, Except.toBool] at ok
      | ok summary => exact ⟨summary, rfl⟩
  obtain ⟨summary, run⟩ := succeeds first
  obtain ⟨again, rerun⟩ := succeeds second
  obtain ⟨bytes, read, reread⟩ := stable _ summary run _ again rerun
  rw [read_of_generate run] at read
  rw [read_of_generate rerun] at reread
  have equal := (Except.ok.inj reread).trans (Except.ok.inj read).symm
  exact differ (String.toByteArray_inj.mp equal)

/-- A source that is reached through a directory that is missing. -/
def detour : FileSystem where
  root := [("a.lua", .file "function f() end".toUTF8)]
  workingDirectory := []

/-- A function whose parameters hold a definition. -/
def nestedDefinition : FileSystem where
  root := [("a.lua", .file "f = function(a\ng = function(b) end\n".toUTF8)]
  workingDirectory := []

/-- An old stub file with a function that the new one hides. -/
def hiddenFunction : FileSystem where
  root := [("a.lua", .file "mylocal.x = function() end".toUTF8),
    ("o.lua", .file "function f() end".toUTF8)]
  workingDirectory := []

/-- A run is not stable where it makes a directory through which more files are found, where a
definition stands in the parameters of another, and where it hides a function of the old stub file.
-/
theorem generate_not_isStable :
    ¬ IsStable detour .default ["x/../a.lua"] "x/o.lua" ∧
      ¬ IsStable nestedDefinition .default ["a.lua", "o.lua"] "o.lua" ∧
      ¬ IsStable hiddenFunction .default ["a.lua", "o.lua"] "o.lua" := by
  refine ⟨not_isStable ?_ ?_ ?_, not_isStable ?_ ?_ ?_, not_isStable ?_ ?_ ?_⟩ <;> decide +kernel

end LuaDecl.Generation
