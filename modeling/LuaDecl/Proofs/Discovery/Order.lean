import LuaDecl.Proofs.Discovery.Growth

/-!
# The order of discovery

What a directory among the inputs contributes to a discovery is a part of its walk, in strictly
increasing order of the locations below the directory, compared name by name. The order in which
directories list their entries plays no part in it, and to leave out more directories takes files
from the walk and changes nothing else (`walk_goes_inOrder`).
-/

namespace LuaDecl

/-- The configuration that leaves out directories of more names. -/
def ScanConfig.skipping (config : ScanConfig) (names : List String) : ScanConfig :=
  { config with skipDirs := names.foldl SortedSet.insert config.skipDirs }

namespace FileSystem

variable {fs other : FileSystem} {path : String}

/-- The same entries stand at the same locations of both trees, in whatever order the directories
list them. -/
structure SameEntries (fs other : FileSystem) : Prop where
  workingDirectory : other.workingDirectory = fs.workingDirectory
  entries : ∀ location, other.bareAt? location = fs.bareAt? location

theorem SameEntries.symm (same : SameEntries fs other) : SameEntries other fs :=
  ⟨same.workingDirectory.symm, fun location => (same.entries location).symm⟩

/-- From one tree to the other nothing is made and nothing written. -/
theorem SameEntries.grows (same : SameEntries fs other) : Grows fs other none where
  workingDirectory := same.workingDirectory
  others := fun location _ => Or.inl (same.entries location)
  file := by simp

/-- Whatever the order of its children, the root has the same entries. -/
theorem sameEntries_of_perm {root others : List (String × Entry)} (perm : root.Perm others)
    (distinct : (root.map Prod.fst).Nodup) (workingDirectory : Location)
    (limit : Location → Option Limit) :
    SameEntries ⟨root, workingDirectory, limit⟩ ⟨others, workingDirectory, limit⟩ where
  workingDirectory := rfl
  entries := by
    have distinct' : (others.map Prod.fst).Nodup := (perm.map Prod.fst).nodup_iff.mp distinct
    have listed (name : String) : others.lookup name = root.lookup name := by
      refine Option.ext fun entry => ?_
      rw [lookup_eq_some_iff distinct, lookup_eq_some_iff distinct', perm.mem_iff]
    intro location
    cases location with
    | nil => rfl
    | cons name rest =>
      simp only [bareAt?, entryAt?, Entry.at?_directory_cons, listed]

theorem fileAt?_of_sameEntries (same : SameEntries fs other) (path : String) :
    other.fileAt? path = fs.fileAt? path :=
  Option.ext fun _ => ⟨same.symm.grows.fileAt?, same.grows.fileAt?⟩

end FileSystem

namespace Discovery

open FileSystem

variable {fs other : FileSystem} {config : ScanConfig} {input path name : String}
  {names : List String} {top location : Location} {children : List (String × Entry)}

/-! ### Trees with the same entries -/

section SameEntries

variable (same : SameEntries fs other) (tidy : fs.IsTidy) (tidyOther : other.IsTidy)

include same tidy tidyOther

theorem value_expand_of_sameEntries (config : ScanConfig) (input : String) :
    (expand other config input).value = (expand fs config input).value := by
  rw [value_expand_of_grows tidy tidyOther same.grows,
    value_expand_of_grows tidyOther tidyOther (.refl other), List.filter_filter]
  simp only [fileAt?_of_sameEntries same, Bool.and_self]

theorem value_walk_of_sameEntries (directory : fs.isDirectory input = true) :
    (walk other config input).value = (walk fs config input).value := by
  obtain ⟨top, children, resolved⟩ := isDirectory_iff.mp directory
  obtain ⟨others, resolved'⟩ := same.grows.resolve_directory resolved
  have expanded := value_expand_of_sameEntries same tidy tidyOther config input
  rwa [value_expand, value_expand, if_pos directory,
    if_pos (isDirectory_iff.mpr ⟨top, others, resolved'⟩)] at expanded

theorem value_discover_of_sameEntries (config : ScanConfig) (inputs : List String) :
    (discover other config inputs).value = (discover fs config inputs).value := by
  rw [value_discover, value_discover]
  simp only [value_expand_of_sameEntries same tidy tidyOther]
  refine firstPaths_congr fun path member => ?_
  obtain ⟨input, -, inside⟩ := List.mem_flatMap.mp member
  rw [value_expand_of_grows tidy tidy (.refl fs)] at inside
  obtain ⟨place, found⟩ := Option.isSome_iff_exists.mp (List.mem_filter.mp inside).2
  exact identity_of_grows same.grows found

end SameEntries

/-! ### More directories left out -/

/-- No directory above the location has one of the names. -/
def avoids (names : List String) (location : Location) : Bool :=
  location.dropLast.all fun name => !names.contains name

theorem skips_iff : config.skips name = true ↔ name ∈ SortedSet.toList config.skipDirs := by
  rw [ScanConfig.skips, SortedMap.contains, SortedSet.mem_toList_iff, Option.isSome_iff_exists]
  exact ⟨fun ⟨_, known⟩ => known, fun known => ⟨(), known⟩⟩

theorem skips_skipping_iff : (config.skipping names).skips name = true ↔
    name ∈ names ∨ config.skips name = true := by
  induction names generalizing config with
  | nil => simp [ScanConfig.skipping]
  | cons added names ih =>
    have further : config.skipping (added :: names) =
        ScanConfig.skipping { config with skipDirs := config.skipDirs.insert added } names := rfl
    rw [further, ih, skips_iff, SortedSet.mem_toList_insert, ← skips_iff, List.mem_cons, or_assoc,
      or_left_comm]

theorem reached_skipping_iff {opens : Location → Bool} :
    Reached (config.skipping names).skips opens location ↔
      Reached config.skips opens location ∧ avoids names location = true := by
  have entered (name : String) : (config.skipping names).skips name = false ↔
      config.skips name = false ∧ name ∉ names := by
    rw [← Bool.not_eq_true, skips_skipping_iff, not_or, Bool.not_eq_true, and_comm]
  constructor
  · intro reached
    refine ⟨⟨fun name member => ((entered name).mp (reached.unskipped name member)).1,
      reached.opened⟩, List.all_eq_true.mpr fun name member => ?_⟩
    simpa using ((entered name).mp (reached.unskipped name member)).2
  · rintro ⟨reached, avoiding⟩
    refine ⟨fun name member => (entered name).mpr ⟨reached.unskipped name member, ?_⟩,
      reached.opened⟩
    simpa using List.all_eq_true.mp avoiding name member

/-- A walk that leaves out more counts what it counted before, but for what stands below the
directories left out. -/
theorem counted_skipping (tidy : fs.IsTidy)
    (there : fs.entryAt? top = some (.directory children)) (names : List String) :
    counted fs (config.skipping names) input children =
      (counted fs config input children).filter (avoids names) := by
  refine List.Pairwise.eq_of_mem_iff (pairwise_counted tidy there)
    ((pairwise_counted tidy there).filter _) fun location => ?_
  rw [List.mem_filter, mem_counted_iff tidy there, mem_counted_iff tidy there, reached_skipping_iff]
  constructor
  · rintro ⟨nonempty, ⟨reached, avoiding⟩, accepted, leads⟩
    exact ⟨⟨nonempty, reached, accepted, leads⟩, avoiding⟩
  · rintro ⟨⟨nonempty, reached, accepted, leads⟩, avoiding⟩
    exact ⟨nonempty, ⟨reached, avoiding⟩, accepted, leads⟩

/-- The walk of a directory: its locations in order, and what is left when more is left out. -/
theorem exists_locations_of_walk (tidy : fs.IsTidy) (directory : fs.isDirectory input = true)
    (config : ScanConfig) :
    ∃ locations : List Location, locations.Pairwise (· < ·) ∧
      (walk fs config input).value = locations.map (pathBelow input) ∧
      ∀ names, (walk fs (config.skipping names) input).value =
        (locations.filter (avoids names)).map (pathBelow input) := by
  obtain ⟨top, children, resolved⟩ := isDirectory_iff.mp directory
  have there : fs.entryAt? top = some (.directory children) :=
    (resolve_eq_ok_iff.mp resolved).2.isIn
  cases spelled : isStandardInput input with
  | true =>
    have nothing (config : ScanConfig) : (walk fs config input).value = [] := by
      rw [walk, if_pos spelled]
      rfl
    exact ⟨[], .nil, nothing config, fun names => nothing _⟩
  | false =>
    refine ⟨counted fs config input children, pairwise_counted tidy there,
      value_walk spelled resolved, fun names => ?_⟩
    rw [value_walk spelled resolved, counted_skipping tidy there]

theorem sublist_expand_skipping (tidy : fs.IsTidy) (config : ScanConfig) (names : List String)
    (input : String) :
    ((expand fs (config.skipping names) input).value).Sublist (expand fs config input).value := by
  rw [value_expand, value_expand]
  by_cases directory : fs.isDirectory input = true
  · obtain ⟨locations, -, walked, left⟩ := exists_locations_of_walk tidy directory config
    rw [if_pos directory, if_pos directory, walked, left]
    exact List.filter_sublist.map _
  · rw [if_neg directory, if_neg directory]
    exact .refl _

/-- No file is new where more directories are left out, though it may be found under another of its
paths. -/
theorem exists_mem_discover_of_skipping (tidy : fs.IsTidy) (config : ScanConfig)
    (names inputs : List String)
    (member : path ∈ (discover fs (config.skipping names) inputs).value) :
    ∃ kept ∈ (discover fs config inputs).value, identity fs kept = identity fs path := by
  rw [value_discover] at member ⊢
  obtain ⟨input, inInputs, inside⟩ := List.mem_flatMap.mp (firstPaths_subset member)
  exact exists_mem_firstPaths (List.mem_flatMap.mpr
    ⟨input, inInputs, (sublist_expand_skipping tidy config names input).subset inside⟩)

/-! ### What inputs contribute -/

/-- More inputs add to what is discovered a part of what they stand for. -/
theorem exists_discover_append (fs : FileSystem) (config : ScanConfig)
    (inputs more : List String) :
    ∃ own, own.Sublist (more.flatMap fun input => (expand fs config input).value) ∧
      (discover fs config (inputs ++ more)).value = (discover fs config inputs).value ++ own := by
  rw [value_discover, value_discover, List.flatMap_append, firstPaths_append]
  exact ⟨_, List.filter_sublist.trans (firstPaths_sublist fs _), rfl⟩

/-- Paths to different files are all first. -/
theorem firstPaths_of_nodup {paths : List String} (distinct : (paths.map (identity fs)).Nodup) :
    firstPaths fs paths = paths := by
  induction paths with
  | nil => rfl
  | cons path rest ih =>
    obtain ⟨fresh, others⟩ := List.nodup_cons.mp distinct
    rw [firstPaths, ih others, List.filter_eq_self.mpr]
    intro other member
    refine decide_eq_true fun same => fresh ?_
    exact List.mem_map.mpr ⟨other, member, same⟩

/-- What a directory contributes goes in order. Its walk comes to locations in strictly increasing
order, compared name by name; after any other inputs the directory contributes a part of them, in
this order, that no later input changes. How directories list their entries plays no part. To leave
out directories of more names takes from the walk what stands below them, and no file is discovered
that was not before; of two paths to one file, though, a discovery keeps the first that is left. -/
theorem walk_goes_inOrder (tidy : fs.IsTidy) (directory : fs.isDirectory input = true)
    (config : ScanConfig) :
    ∃ locations : List Location, locations.Pairwise (· < ·) ∧
      (walk fs config input).value = locations.map (pathBelow input) ∧
      (∀ before rest, ∃ (own : List Location) (more : List String), own.Sublist locations ∧
        (discover fs config (before ++ [input])).value =
          (discover fs config before).value ++ own.map (pathBelow input) ∧
        (discover fs config (before ++ input :: rest)).value =
          (discover fs config (before ++ [input])).value ++ more) ∧
      (∀ other, SameEntries fs other → other.IsTidy →
        (walk other config input).value = (walk fs config input).value ∧
        ∀ inputs, (discover other config inputs).value = (discover fs config inputs).value) ∧
      ∀ names,
        (walk fs (config.skipping names) input).value =
          (locations.filter (avoids names)).map (pathBelow input) ∧
        (((walk fs config input).value.map (identity fs)).Nodup →
          (discover fs (config.skipping names) [input]).value =
            (walk fs (config.skipping names) input).value) ∧
        ∀ inputs, ∀ path ∈ (discover fs (config.skipping names) inputs).value,
          ∃ kept ∈ (discover fs config inputs).value, identity fs kept = identity fs path := by
  obtain ⟨locations, sorted, walked, left⟩ := exists_locations_of_walk tidy directory config
  have expanded (config : ScanConfig) :
      ([input].flatMap fun input => (expand fs config input).value) =
        (walk fs config input).value := by
    rw [List.flatMap_singleton, value_expand, if_pos directory]
  refine ⟨locations, sorted, walked, fun before rest => ?_, fun other same tidyOther => ?_,
    fun names => ⟨left names, fun distinct => ?_, fun inputs path member => ?_⟩⟩
  · obtain ⟨paths, part, added⟩ := exists_discover_append fs config before [input]
    obtain ⟨more, -, further⟩ := exists_discover_append fs config (before ++ [input]) rest
    rw [expanded, walked] at part
    obtain ⟨own, inOrder, rfl⟩ := List.sublist_map_iff.mp part
    refine ⟨own, more, inOrder, added, ?_⟩
    rwa [List.append_assoc, List.singleton_append] at further
  · exact ⟨value_walk_of_sameEntries same tidy tidyOther directory,
      value_discover_of_sameEntries same tidy tidyOther config⟩
  · rw [value_discover, expanded]
    refine firstPaths_of_nodup (distinct.sublist (List.Sublist.map _ ?_))
    rw [walked, left]
    exact List.filter_sublist.map _
  · exact exists_mem_discover_of_skipping tidy config names inputs member

/-- A directory, a file with its name and more, and another file. -/
def listedTree : FileSystem where
  root := [("a", .directory [("z.lua", .file ByteArray.empty)]), ("a.lua", .file ByteArray.empty),
    ("b.lua", .file ByteArray.empty)]
  workingDirectory := []

/-- The same tree, listed in another order. -/
def relistedTree : FileSystem where
  root := [("b.lua", .file ByteArray.empty), ("a.lua", .file ByteArray.empty),
    ("a", .directory [("z.lua", .file ByteArray.empty)])]
  workingDirectory := []

theorem isTidy_of_perm_listedTree {root : List (String × Entry)}
    (perm : root.Perm listedTree.root) : IsTidy { root, workingDirectory := [] } := by
  have valid : ∀ name ∈ ["z.lua", "a", "a.lua", "b.lua"], IsName name := by
    have proper : ∀ name ∈ ["z.lua", "a", "a.lua", "b.lua"],
        IsProper name ∧ '/' ∉ name.toList := by decide
    exact fun name member => ⟨(proper name member).1, (proper name member).2⟩
  have names := perm.map Prod.fst
  refine isTidy_of_root ⟨names.nodup_iff.mpr (by decide), fun name member => ?_⟩ ?_
  · exact valid name (.tail _ (names.mem_iff.mp member))
  · intro name children member
    obtain ⟨-, rfl⟩ : name = "a" ∧ children = [("z.lua", .file ByteArray.empty)] := by
      simpa [listedTree] using perm.mem_iff.mp member
    refine isTidy_of_root ⟨by decide, fun name member => ?_⟩ (by simp)
    obtain rfl := List.mem_singleton.mp member
    exact valid _ List.mem_cons_self

theorem resolve_listedTree :
    listedTree.resolve "." = .ok (.present [] (.directory listedTree.root)) := by
  have usable : IsUsable "." := by decide
  have steps : Path.steps "." = ["."] := by decide
  rw [resolve_eq_follow usable, steps]
  rfl

/-- The walk of the tree that is listed in order. -/
theorem value_walk_listedTree :
    (walk listedTree .default ".").value = ["./a/z.lua", "./a.lua", "./b.lua"] := by
  have leaves : leaves ScanConfig.default.skips (isOpenable ".") listedTree.root =
      [⟨["a", "z.lua"], .file ByteArray.empty⟩, ⟨["a.lua"], .file ByteArray.empty⟩,
        ⟨["b.lua"], .file ByteArray.empty⟩] := by
    have entered : ScanConfig.default.skips "a" = false := by decide
    have opened : isOpenable "." ["a"] = true := by decide
    rw [FileSystem.leaves, inNameOrder, List.mergeSort_of_pairwise]
    · simp [leafGroups, listedTree, entered, opened, inNameOrder]
    · have sorted : ((leafGroups ScanConfig.default.skips (isOpenable ".") listedTree.root).map
          Prod.fst).Pairwise fun a b => decide (a ≤ b) = true := by
        rw [map_fst_leafGroups]
        decide
      exact List.pairwise_map.mp sorted
  rw [value_walk (by decide) resolve_listedTree, counted, leaves]
  decide

/-- A directory comes before the file with its name and more, in whatever order they are listed. -/
theorem walk_goes_inOrder_relisted :
    ∃ locations : List Location, locations.Pairwise (· < ·) ∧
      (walk listedTree .default ".").value = locations.map (pathBelow ".") ∧
      (walk relistedTree .default ".").value = ["./a/z.lua", "./a.lua", "./b.lua"] := by
  have tidy : listedTree.IsTidy := isTidy_of_perm_listedTree (.refl _)
  have perm : relistedTree.root.Perm listedTree.root := List.reverse_perm listedTree.root
  have same : SameEntries listedTree relistedTree :=
    sameEntries_of_perm perm.symm (by decide) [] fun _ => none
  have directory := isDirectory_iff.mpr ⟨_, _, resolve_listedTree⟩
  obtain ⟨locations, sorted, goes, -, order, -⟩ := walk_goes_inOrder tidy directory .default
  have relisted := (order relistedTree same (isTidy_of_perm_listedTree perm)).1
  exact ⟨locations, sorted, goes, relisted.trans value_walk_listedTree⟩

end Discovery

end LuaDecl
