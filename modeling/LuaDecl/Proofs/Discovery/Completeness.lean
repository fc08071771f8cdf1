import LuaDecl.Proofs.Discovery.Expansion
import LuaDecl.Proofs.FileSystem.Follow

/-!
# Nothing is lost and nothing found twice

What is discovered are the paths that the inputs stand for, in the order of the inputs and of the
walks, and of several paths that lead to the same file the first (`discovers_each_file_once`). A
directory whose path is too long cannot be opened, so what stands below it is missing, and so is
what stands below a directory that is spelled as the standard input (`loses_what_is_not_opened`).
-/

namespace LuaDecl.Discovery

open FileSystem

variable {fs : FileSystem} {config : ScanConfig}

/-! ### The first paths -/

/-- The paths without those to a file that an earlier path leads to. -/
def firstPaths (fs : FileSystem) : List String → List String
  | [] => []
  | path :: rest =>
    path :: (firstPaths fs rest).filter fun other => identity fs other ≠ identity fs path

theorem firstPaths_sublist (fs : FileSystem) (paths : List String) :
    (firstPaths fs paths).Sublist paths := by
  induction paths with
  | nil => exact .slnil
  | cons path rest ih => exact (List.filter_sublist.trans ih).cons_cons path

theorem firstPaths_subset {paths : List String} : firstPaths fs paths ⊆ paths :=
  (firstPaths_sublist fs paths).subset

theorem nodup_firstPaths (paths : List String) :
    ((firstPaths fs paths).map (identity fs)).Nodup := by
  induction paths with
  | nil => exact List.nodup_nil
  | cons path rest ih =>
    rw [firstPaths, List.map_cons, List.nodup_cons]
    refine ⟨?_, ih.sublist (List.filter_sublist.map _)⟩
    simp

/-- Every file is kept under one of its paths. -/
theorem exists_mem_firstPaths {path : String} {paths : List String} (member : path ∈ paths) :
    ∃ kept ∈ firstPaths fs paths, identity fs kept = identity fs path := by
  induction paths with
  | nil => exact absurd member List.not_mem_nil
  | cons first rest ih =>
    by_cases same : identity fs path = identity fs first
    · exact ⟨first, List.mem_cons_self, same.symm⟩
    · have later : path ∈ rest := by
        rcases List.mem_cons.mp member with rfl | later
        · exact absurd rfl same
        · exact later
      obtain ⟨kept, found, equal⟩ := ih later
      refine ⟨kept, List.mem_cons_of_mem _ (List.mem_filter.mpr ⟨found, ?_⟩), equal⟩
      simpa [equal] using same

/-! ### The queue -/

theorem queue_cons_of_mem {seen : List (List String)} {path : String}
    (known : identity fs path ∈ seen) (rest : List String) :
    (queue fs seen (path :: rest)).value = (queue fs seen rest).value := by
  simp only [queue, if_pos known, Logged.value_bind]

theorem queue_cons_of_not_mem {seen : List (List String)} {path : String}
    (fresh : identity fs path ∉ seen) (rest : List String) :
    (queue fs seen (path :: rest)).value =
      (path :: (queue fs (identity fs path :: seen) rest).value.1,
        (queue fs (identity fs path :: seen) rest).value.2) := by
  simp only [queue, if_neg fresh, Logged.value_bind, Logged.value_pure]

/-- The queue takes the first paths to files that are not seen yet. -/
theorem files_queue (seen : List (List String)) (paths : List String) :
    (queue fs seen paths).value.1 =
      (firstPaths fs paths).filter fun path => identity fs path ∉ seen := by
  induction paths generalizing seen with
  | nil => rfl
  | cons path rest ih =>
    by_cases known : identity fs path ∈ seen
    · -- The paths to the same file are seen already: to drop them beforehand changes nothing.
      rw [queue_cons_of_mem known, ih, firstPaths, List.filter_cons_of_neg (by simpa using known),
        List.filter_filter]
      apply List.filter_congr
      intro other _
      have apart : identity fs other ∉ seen → identity fs other ≠ identity fs path := by
        rintro fresh equal
        exact fresh (equal ▸ known)
      simpa using apart
    · rw [queue_cons_of_not_mem known, ih, firstPaths,
        List.filter_cons_of_pos (by simpa using known), List.filter_filter]
      refine congrArg (path :: ·) (List.filter_congr fun other _ => ?_)
      simp [Bool.and_comm]

/-- Paths are queued one list after the other as they would be at once. -/
theorem queue_append (seen : List (List String)) (paths more : List String) :
    (queue fs seen (paths ++ more)).value =
      ((queue fs seen paths).value.1 ++ (queue fs (queue fs seen paths).value.2 more).value.1,
        (queue fs (queue fs seen paths).value.2 more).value.2) := by
  induction paths generalizing seen with
  | nil => rfl
  | cons path rest ih =>
    rw [List.cons_append]
    by_cases known : identity fs path ∈ seen
    · rw [queue_cons_of_mem known, queue_cons_of_mem known, ih]
    · rw [queue_cons_of_not_mem known, queue_cons_of_not_mem known, ih]
      rfl

theorem value_discoverFrom (seen : List (List String)) (inputs : List String) :
    (discoverFrom fs config seen inputs).value =
      (queue fs seen (inputs.flatMap fun input => (expand fs config input).value)).value.1 := by
  induction inputs generalizing seen with
  | nil => rfl
  | cons input rest ih =>
    rw [List.flatMap_cons, queue_append]
    simp only [discoverFrom, Logged.value_bind, Logged.value_pure, ih]

theorem value_discover (inputs : List String) :
    (discover fs config inputs).value =
      firstPaths fs (inputs.flatMap fun input => (expand fs config input).value) := by
  rw [discover, value_discoverFrom, files_queue]
  simp

/-! ### What is discovered -/

/-- Each file that an input stands for is discovered under some path. -/
def FindsAll (fs : FileSystem) (config : ScanConfig) (opens : String → Bool)
    (inputs : List String) : Prop :=
  ∀ input ∈ inputs, ∀ path, Expands fs config opens input path →
    ∃ kept ∈ (discover fs config inputs).value, identity fs kept = identity fs path

/-- What is discovered are the paths that the inputs stand for, in the order of the inputs, and of
the paths to one file the first: none is lost and none found twice. -/
theorem discovers_each_file_once (fs : FileSystem) (config : ScanConfig) (inputs : List String)
    (spelled : ∀ input ∈ inputs, fs.isDirectory input = true → Path.components input ≠ ["-"]) :
    (∀ input ∈ inputs, ∀ path,
      path ∈ (expand fs config input).value ↔ Expands fs config isShort input path) ∧
      (discover fs config inputs).value =
        firstPaths fs (inputs.flatMap fun input => (expand fs config input).value) ∧
      ((discover fs config inputs).value.map (identity fs)).Nodup ∧
      FindsAll fs config isShort inputs := by
  have expanded : ∀ input ∈ inputs, ∀ path,
      path ∈ (expand fs config input).value ↔ Expands fs config isShort input path := by
    intro input member path
    exact mem_expand_iff (spelled input member)
  refine ⟨expanded, value_discover inputs, ?_, ?_⟩
  · rw [value_discover]
    exact nodup_firstPaths _
  · intro input member path stands
    rw [value_discover]
    exact exists_mem_firstPaths
      (List.mem_flatMap.mpr ⟨input, member, (expanded input member path).mpr stands⟩)

/-- A directory with a file and a link to it. -/
def linkedTree : FileSystem where
  root := [("a", .directory [("x.lua", .file ByteArray.empty), ("l.lua", .link "x.lua")])]
  workingDirectory := []

/-- A file that is an input after the directory that it stands in is found. -/
theorem discovers_each_file_once_overlap :
    ∃ kept ∈ (discover linkedTree .default ["a", "a/x.lua"]).value,
      identity linkedTree kept = identity linkedTree "a/x.lua" := by
  have file : linkedTree.isFile "a/x.lua" = true := by
    have outer : IsProper "a" := by decide
    have inner : IsProper "x.lua" := by decide
    have steps : Path.steps "a/x.lua" = ["a", "x.lua"] := by decide
    have relative : ¬ Path.isAbsolute "a/x.lua" = true := by decide
    have usable : IsUsable "a/x.lua" := by decide
    have resolved : linkedTree.resolve "a/x.lua" = _ := resolve_eq_follow usable
    rw [steps, if_neg relative, follow_directory outer rfl, follow_file inner rfl] at resolved
    simp only [isFile, resolved]
  have spelled : ∀ input ∈ ["a", "a/x.lua"],
      linkedTree.isDirectory input = true → Path.components input ≠ ["-"] := by
    intro input member _
    simp only [List.mem_cons, List.not_mem_nil, or_false] at member
    rcases member with rfl | rfl <;> decide
  exact (discovers_each_file_once linkedTree .default ["a", "a/x.lua"] spelled).2.2.2 "a/x.lua"
    (by simp) "a/x.lua" (.itself file (by decide))

/-! ### What is not opened -/

/-- A directory's name and slashes behind it, which say nothing but make the path longer. -/
def slashed (n : Nat) : String :=
  String.ofList ('d' :: List.replicate n '/')

theorem pieces_slashes (n : Nat) (s : List Char) :
    Text.pieces '/' (List.replicate n '/' ++ s) = List.replicate n [] ++ Text.pieces '/' s := by
  induction n with
  | zero => rfl
  | succ n ih => simp [List.replicate_succ, Text.pieces, ih]

theorem names_slashed_append (n : Nat) (s : String) :
    Path.names (slashed (n + 1) ++ s) = "d" :: Path.names s := by
  simp only [Path.names, slashed, String.toList_append, String.toList_ofList, List.cons_append]
  rw [Text.pieces, if_neg (by decide), pieces_slashes, List.replicate_succ, List.cons_append]
  simp only [List.filter_cons, List.filter_append, List.filter_replicate, ne_eq, not_true_eq_false,
    decide_false, Bool.false_eq_true, if_false, List.nil_append, List.cons_ne_nil,
    not_false_eq_true, decide_true, if_true, List.map_cons]

theorem names_slashed (n : Nat) : Path.names (slashed (n + 1)) = ["d"] := by
  have nothing : Path.names "" = [] := rfl
  rw [← String.append_empty (s := slashed (n + 1)), names_slashed_append, nothing]

theorem not_isAbsolute_slashed (n : Nat) : ¬ Path.isAbsolute (slashed n) = true := by
  simp [Path.isAbsolute, slashed]

theorem components_slashed (n : Nat) : Path.components (slashed (n + 1)) = ["d"] := by
  rw [Path.components, names_slashed, if_neg (not_isAbsolute_slashed _)]
  decide

theorem endsInSlash_slashed (n : Nat) : Path.endsInSlash (slashed (n + 1)) = true := by
  have last : 'd' :: List.replicate (n + 1) '/' = ('d' :: List.replicate n '/') ++ ['/'] := by
    rw [List.replicate_succ', List.cons_append]
  rw [Path.endsInSlash, slashed, String.toList_ofList, last, List.getLast?_concat]
  rfl

theorem utf8ByteSize_slashed (n : Nat) : (slashed n).utf8ByteSize = n + 1 := by
  have slashes : (String.ofList (List.replicate n '/')).utf8ByteSize = n := by
    induction n with
    | zero => rfl
    | succ n ih =>
      rw [List.replicate_succ, String.ofList_cons, String.utf8ByteSize_append, ih]
      exact Nat.add_comm _ _
  rw [slashed, String.ofList_cons, String.utf8ByteSize_append, slashes]
  exact Nat.add_comm _ _

/-- A directory with a file, in a directory. -/
def nestedTree : FileSystem where
  root := [("d", .directory [("sub", .directory [("a.lua", .file ByteArray.empty)])])]
  workingDirectory := []

theorem resolve_slashed {n : Nat} (short : n + 2 < pathLimit) :
    nestedTree.resolve (slashed (n + 1)) =
      .ok (.present ["d"]
        (.directory [("sub", .directory [("a.lua", .file ByteArray.empty)])])) := by
  have usable : IsUsable (slashed (n + 1)) := by
    refine ⟨?_, ?_, ?_⟩
    · simp [slashed]
    · simp [slashed]
    · rw [utf8ByteSize_slashed]
      exact short
  have proper : IsProper "d" := by decide
  rw [resolve_eq_follow usable, Path.steps, names_slashed, if_pos (endsInSlash_slashed n),
    if_neg (not_isAbsolute_slashed _), List.cons_append, follow_directory proper rfl,
    List.nil_append, follow_empty, follow_nil rfl]
  rfl

theorem pathBelow_slashed (n : Nat) :
    pathBelow (slashed (n + 1)) ["sub"] = slashed (n + 1) ++ "sub" := by
  simp [pathBelow, Path.join, endsInSlash_slashed]

theorem pathBelow_slashed_file (n : Nat) :
    pathBelow (slashed (n + 1)) ["sub", "a.lua"] = slashed (n + 1) ++ "sub/a.lua" := by
  have noSlash : Path.endsInSlash (slashed (n + 1) ++ "sub") = false := by
    simp [Path.endsInSlash]
  have outer := pathBelow_slashed n
  simp only [pathBelow, List.foldl_cons, List.foldl_nil] at outer ⊢
  rw [outer, Path.join, noSlash]
  simp [String.append_assoc]

/-- A file below a directory that is spelled with so many slashes that the path of the directory in
it is too long. -/
theorem expands_slashed {n : Nat} (short : n + 2 < pathLimit) :
    Expands nestedTree .default (fun _ => true) (slashed (n + 1))
      (slashed (n + 1) ++ "sub/a.lua") := by
  have names : Path.names (slashed (n + 1) ++ "sub/a.lua") = ["d", "sub", "a.lua"] := by
    rw [names_slashed_append]
    decide
  have accepted : isAccepted .default (slashed (n + 1) ++ "sub/a.lua") = true := by
    simp only [isAccepted, Path.extension?, Path.fileName?, names]
    decide
  have stands : Below [("sub", .directory [("a.lua", .file ByteArray.empty)])] ["sub", "a.lua"]
      (.file ByteArray.empty) := .deeper List.mem_cons_self (.child List.mem_cons_self)
  have reached : Reached (ScanConfig.skips .default) (fun _ => true) ["sub", "a.lua"] :=
    ⟨by decide, fun _ _ _ _ _ => rfl⟩
  rw [← pathBelow_slashed_file] at accepted ⊢
  exact .below (resolve_slashed short) stands reached (Or.inl ⟨_, rfl⟩) accepted

theorem not_expands_slashed {n : Nat} (short : n + 2 < pathLimit) (long : pathLimit ≤ n + 5)
    (path : String) : ¬ Expands nestedTree .default isShort (slashed (n + 1)) path := by
  have resolved := resolve_slashed short
  have closed : isShort (pathBelow (slashed (n + 1)) ["sub"]) = false := by
    have size : "sub".utf8ByteSize = 3 := by decide
    rw [pathBelow_slashed, isShort, String.utf8ByteSize_append, utf8ByteSize_slashed, size]
    exact decide_eq_false (by omega)
  intro stands
  cases stands with
  | @below _ others location entry resolved' below reached leads _ =>
    obtain ⟨-, rfl⟩ : _ ∧ _ = others := by simpa [resolved] using resolved'
    rcases below_cons_iff.mp below with ⟨-, rfl⟩ | ⟨_, inner, -, rfl, further⟩ | none
    · simp at leads
    · have opened := reached.opened ["sub"] inner rfl (by simp) further.ne_nil
      rw [closed] at opened
      exact Bool.false_ne_true opened
    · exact not_below_nil none
  | itself file _ =>
    rw [isFile_eq_false_of_isDirectory (isDirectory_iff.mpr ⟨_, _, resolved⟩)] at file
    exact Bool.false_ne_true file

/-- A directory that is spelled as the standard input. -/
def dashTree : FileSystem where
  root := [("-", .directory [("a.lua", .file ByteArray.empty)])]
  workingDirectory := []

theorem resolve_dash :
    dashTree.resolve "-" =
      .ok (.present ["-"] (.directory [("a.lua", .file ByteArray.empty)])) := by
  have proper : IsProper "-" := by decide
  have usable : IsUsable "-" := by decide
  have steps : Path.steps "-" = ["-"] := by decide
  have relative : ¬ Path.isAbsolute "-" = true := by decide
  rw [resolve_eq_follow usable, steps, if_neg relative, follow_directory proper rfl, follow_nil rfl]
  rfl

/-- Files are missed below a directory whose path is too long, and below one that is spelled as the
standard input. -/
theorem loses_what_is_not_opened :
    ¬ FindsAll nestedTree .default (fun _ => true) [slashed 4092] ∧
      ¬ FindsAll dashTree .default (fun _ => true) ["-"] := by
  constructor
  · intro findsAll
    have expands := expands_slashed (n := 4091) (by decide)
    obtain ⟨kept, found, -⟩ := findsAll _ List.mem_cons_self _ expands
    rw [value_discover] at found
    obtain ⟨input, member, taken⟩ := List.mem_flatMap.mp (firstPaths_subset found)
    obtain rfl := List.mem_singleton.mp member
    have spelled : Path.components (slashed (4091 + 1)) ≠ ["-"] := by
      rw [components_slashed]
      decide
    exact not_expands_slashed (by decide) (by decide) kept
      ((mem_expand_iff fun _ => spelled).mp taken)
  · intro findsAll
    have stands : Below [("a.lua", .file ByteArray.empty)] ["a.lua"] (.file ByteArray.empty) :=
      .child List.mem_cons_self
    have expands : Expands dashTree .default (fun _ => true) "-" (pathBelow "-" ["a.lua"]) :=
      .below resolve_dash stands (reached_singleton "a.lua") (Or.inl ⟨_, rfl⟩) (by decide)
    obtain ⟨kept, found, -⟩ := findsAll "-" List.mem_cons_self _ expands
    have directory : dashTree.isDirectory "-" = true := isDirectory_iff.mpr ⟨_, _, resolve_dash⟩
    rw [value_discover, List.flatMap_cons, List.flatMap_nil, List.append_nil,
      value_expand_of_standardInput directory (by decide)] at found
    exact List.not_mem_nil found

end LuaDecl.Discovery
