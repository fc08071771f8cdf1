import LuaDecl.Proofs.Discovery.Completeness
import LuaDecl.Proofs.Discovery.Identity
import LuaDecl.Proofs.FileSystem.WalkOrder
import Mathlib.Data.List.Sort

/-!
# Discovery in a tree that has grown

Below a directory that was there, a walk finds the files that it found before at the same places in
its order. So what an input stands for in the tree that has grown holds what it stood for before, in
the same order, and beyond that only paths that led to no file (`value_expand_of_grows`).
-/

namespace LuaDecl.Discovery

open FileSystem

variable {fs after : FileSystem} {config : ScanConfig} {input path : String}
  {top location : Location} {children : List (String × Entry)} {content : ByteArray}
  {written : Option Location}

/-! ### Paths below a directory -/

theorem names_pathBelow (directory : String) (valid : ∀ name ∈ location, IsName name) :
    Path.names (pathBelow directory location) = Path.names directory ++ location := by
  induction location generalizing directory with
  | nil => simp [pathBelow]
  | cons name rest ih =>
    obtain ⟨first, others⟩ := List.forall_mem_cons.mp valid
    have further := ih (Path.join directory name) others
    rw [Path.names_join directory first, List.append_assoc] at further
    exact further

theorem isAbsolute_pathBelow (directory : String) (valid : ∀ name ∈ location, IsName name) :
    Path.isAbsolute (pathBelow directory location) = Path.isAbsolute directory := by
  induction location generalizing directory with
  | nil => rfl
  | cons name rest ih =>
    obtain ⟨first, others⟩ := List.forall_mem_cons.mp valid
    exact (ih (Path.join directory name) others).trans (Path.isAbsolute_join directory first)

theorem steps_pathBelow (directory : String) (valid : ∀ name ∈ location, IsName name)
    (nonempty : location ≠ []) :
    Path.steps (pathBelow directory location) = Path.names directory ++ location := by
  have plain : Path.endsInSlash (pathBelow directory location) = false := by
    rcases List.eq_nil_or_concat location with rfl | ⟨front, name, rfl⟩
    · exact absurd rfl nonempty
    · rw [pathBelow, List.concat_eq_append, List.foldl_append]
      exact Path.endsInSlash_join _ (valid name (by simp))
  rw [Path.steps, plain, names_pathBelow directory valid]
  simp

/-- A file below a directory is at the end of its path. -/
theorem fileAt?_pathBelow (tidy : fs.IsTidy)
    (resolved : fs.resolve input = .ok (.present top (.directory children)))
    (there : fs.entryAt? (top ++ location) = some (.file content)) :
    fs.fileAt? (pathBelow input location) = some (top ++ location) := by
  obtain ⟨-, leads⟩ := resolve_eq_ok_iff.mp resolved
  have valid := tidy.isName_of_mem there
  have nonempty : location ≠ [] := by
    rintro rfl
    have stands : fs.entryAt? top = some (.directory children) := leads.isIn
    simp [stands] at there
  have whole : Leads fs .reach linkLimit (startOf fs.workingDirectory input)
      (Path.names input ++ location) (.present (top ++ location) (.file content)) :=
    (leads.trim (trims_names input)).append rfl fun _ => tidy.leads_down there (by simp)
  refine fileAt?_eq_some_iff.mpr ⟨content, ?_⟩
  rw [steps_pathBelow input valid nonempty, startOf, isAbsolute_pathBelow input valid]
  exact whole

/-- A path to a file below an input leads through the input as a directory. -/
theorem isDirectory_of_fileAt?_pathBelow (usable : IsUsable input)
    (valid : ∀ name ∈ location, IsName name) (nonempty : location ≠ []) {place : Location}
    (found : fs.fileAt? (pathBelow input location) = some place) : fs.isDirectory input = true := by
  obtain ⟨content, leads⟩ := fileAt?_eq_some_iff.mp found
  obtain ⟨name, rest, rfl⟩ := List.exists_cons_of_ne_nil nonempty
  rw [steps_pathBelow input valid nonempty, startOf, isAbsolute_pathBelow input valid] at leads
  obtain ⟨top, children, led⟩ := leads.above (valid name List.mem_cons_self).proper.ordinary
  exact isDirectory_iff.mpr
    ⟨top, children, resolve_eq_ok_iff.mpr ⟨usable, led.steps_of_names⟩⟩

/-! ### Walks -/

/-- A walk counts the leaf: its path leads to a file that is accepted. -/
def counts (fs : FileSystem) (config : ScanConfig) (directory : String) (leaf : Leaf) : Bool :=
  let path := pathBelow directory leaf.location
  leadsToFile fs path leaf && isAccepted config path

/-- The locations of the leaves that a walk counts. -/
def counted (fs : FileSystem) (config : ScanConfig) (directory : String)
    (children : List (String × Entry)) : List Location :=
  ((leaves config.skips (isOpenable directory) children).filter (counts fs config directory)).map
    Leaf.location

theorem value_visitAll (directory : String) (leaves : List Leaf) :
    (visitAll fs config directory leaves).value =
      (leaves.filter (counts fs config directory)).map fun leaf =>
        pathBelow directory leaf.location := by
  induction leaves with
  | nil => rfl
  | cons leaf rest ih =>
    have own : (visit fs config directory leaf).value =
        if counts fs config directory leaf then [pathBelow directory leaf.location] else [] := by
      cases entry : leaf.entry <;> simp [visit, counts, leadsToFile, entry]
    simp only [visitAll, Logged.value_bind, Logged.value_pure, ih, own, List.filter_cons]
    split <;> rfl

theorem value_walk (spelled : isStandardInput input = false)
    (resolved : fs.resolve input = .ok (.present top (.directory children))) :
    (walk fs config input).value = (counted fs config input children).map (pathBelow input) := by
  rw [walk, spelled, resolved, counted, List.map_map]
  exact value_visitAll input _

theorem pairwise_counted (tidy : fs.IsTidy)
    (there : fs.entryAt? top = some (.directory children)) :
    (counted fs config input children).Pairwise (· < ·) := by
  have sorted : (leaves config.skips (isOpenable input) children).Pairwise Leaf.Precedes :=
    pairwise_leaves (tidy.areDistinct there)
  exact List.pairwise_map.mpr (sorted.filter _)

/-- A walk counts the files and the links to files that it comes to and that are accepted. -/
theorem mem_counted_iff (tidy : fs.IsTidy)
    (there : fs.entryAt? top = some (.directory children)) :
    location ∈ counted fs config input children ↔
      location ≠ [] ∧ Reached config.skips (isOpenable input) location ∧
        isAccepted config (pathBelow input location) = true ∧
        ((∃ content, fs.entryAt? (top ++ location) = some (.file content)) ∨
          (∃ target, fs.entryAt? (top ++ location) = some (.link target)) ∧
            fs.isFile (pathBelow input location) = true) := by
  simp only [counted, List.mem_map, List.mem_filter, counts, Bool.and_eq_true, leadsToFile_iff]
  constructor
  · rintro ⟨leaf, ⟨member, leads, accepted⟩, rfl⟩
    have plain : ∀ below, leaf.entry ≠ .directory below := by
      rintro below equal
      rcases leads with ⟨content, file⟩ | ⟨target, link, -⟩
      · simp [equal] at file
      · simp [equal] at link
    obtain ⟨below, reached⟩ := (mem_leaves_iff plain).mp member
    obtain ⟨nonempty, stands⟩ := (tidy.below_iff_entryAt? there).mp below
    refine ⟨nonempty, reached, accepted, ?_⟩
    rcases leads with ⟨content, file⟩ | ⟨target, link, isFile⟩
    · exact Or.inl ⟨content, file ▸ stands⟩
    · exact Or.inr ⟨⟨target, link ▸ stands⟩, isFile⟩
  · rintro ⟨nonempty, reached, accepted, leads⟩
    have member {entry : Entry} (plain : ∀ below, entry ≠ .directory below)
        (stands : fs.entryAt? (top ++ location) = some entry) :
        ⟨location, entry⟩ ∈ leaves config.skips (isOpenable input) children :=
      (mem_leaves_iff plain).mpr
        ⟨(tidy.below_iff_entryAt? there).mpr ⟨nonempty, stands⟩, reached⟩
    rcases leads with ⟨content, stands⟩ | ⟨⟨target, stands⟩, isFile⟩
    · exact ⟨⟨location, .file content⟩, ⟨member (by simp) stands, Or.inl ⟨content, rfl⟩, accepted⟩,
        rfl⟩
    · exact ⟨⟨location, .link target⟩,
        ⟨member (by simp) stands, Or.inr ⟨target, rfl, isFile⟩, accepted⟩, rfl⟩

/-! ### Inputs -/

theorem value_expand (fs : FileSystem) (config : ScanConfig) (input : String) :
    (expand fs config input).value =
      if fs.isDirectory input then (walk fs config input).value
      else if fs.isFile input ∧ isAccepted config input then [input] else [] := by
  rw [expand]
  cases fs.isDirectory input <;> cases fs.isFile input <;> cases isAccepted config input <;> rfl

/-- What is walked through lies below the input. -/
theorem exists_of_mem_walk (tidy : fs.IsTidy) (directory : fs.isDirectory input = true)
    (member : path ∈ (walk fs config input).value) :
    IsUsable input ∧ ∃ location, location ≠ [] ∧ (∀ name ∈ location, IsName name) ∧
      path = pathBelow input location := by
  obtain ⟨top, children, resolved⟩ := isDirectory_iff.mp directory
  obtain ⟨usable, leads⟩ := resolve_eq_ok_iff.mp resolved
  cases spelled : isStandardInput input with
  | true =>
    rw [walk, if_pos spelled] at member
    exact absurd member List.not_mem_nil
  | false =>
    rw [value_walk spelled resolved] at member
    obtain ⟨location, found, rfl⟩ := List.mem_map.mp member
    obtain ⟨nonempty, -, -, stands⟩ := (mem_counted_iff tidy leads.isIn).mp found
    refine ⟨usable, location, nonempty, ?_, rfl⟩
    rcases stands with ⟨content, stands⟩ | ⟨⟨target, stands⟩, -⟩
    · exact tidy.isName_of_mem stands
    · exact tidy.isName_of_mem stands

section Grown

variable (tidy : fs.IsTidy) (tidyAfter : after.IsTidy) (grown : Grows fs after written)

include tidy tidyAfter grown

/-- What a walk counted before is what it counts afterwards of the paths that led to files before.
-/
theorem counted_of_grows {others : List (String × Entry)}
    (resolved : fs.resolve input = .ok (.present top (.directory children)))
    (resolvedAfter : after.resolve input = .ok (.present top (.directory others))) :
    counted fs config input children =
      (counted after config input others).filter fun location =>
        (fs.fileAt? (pathBelow input location)).isSome := by
  have there : fs.entryAt? top = some (.directory children) :=
    (resolve_eq_ok_iff.mp resolved).2.isIn
  have thereAfter : after.entryAt? top = some (.directory others) :=
    (resolve_eq_ok_iff.mp resolvedAfter).2.isIn
  refine List.Pairwise.eq_of_mem_iff (pairwise_counted tidy there)
    ((pairwise_counted tidyAfter thereAfter).filter _) fun location => ?_
  rw [List.mem_filter, mem_counted_iff tidy there, mem_counted_iff tidyAfter thereAfter,
    Option.isSome_iff_exists]
  constructor
  · rintro ⟨nonempty, reached, accepted, ⟨content, stands⟩ | ⟨⟨target, stands⟩, isFile⟩⟩
    · have found := fileAt?_pathBelow tidy resolved stands
      exact ⟨⟨nonempty, reached, accepted, Or.inl (grown.exists_file stands)⟩, _, found⟩
    · obtain ⟨usable, place, found⟩ := isFile_iff.mp isFile
      have isFileAfter := isFile_iff.mpr ⟨usable, place, grown.fileAt? found⟩
      refine ⟨⟨nonempty, reached, accepted, ?_⟩, place, found⟩
      exact Or.inr ⟨⟨target, grown.link stands⟩, isFileAfter⟩
  · rintro ⟨⟨nonempty, reached, accepted, leads⟩, place, found⟩
    rcases leads with ⟨content, stands⟩ | ⟨⟨target, stands⟩, isFile⟩
    · -- The path led to a file, and leads to the one that the walk comes to.
      have same := fileAt?_pathBelow tidyAfter resolvedAfter stands
      rw [grown.fileAt? found] at same
      obtain rfl := Option.some.inj same
      obtain ⟨old, leads⟩ := fileAt?_eq_some_iff.mp found
      exact ⟨nonempty, reached, accepted, Or.inl ⟨old, leads.isIn⟩⟩
    · obtain ⟨usable, -⟩ := isFile_iff.mp isFile
      exact ⟨nonempty, reached, accepted,
        Or.inr ⟨⟨target, grown.of_link stands⟩, isFile_iff.mpr ⟨usable, place, found⟩⟩⟩

/-- What an input stood for before is what it stands for afterwards of the paths that led to files
before. -/
theorem value_expand_of_grows (config : ScanConfig) (input : String) :
    (expand fs config input).value =
      (expand after config input).value.filter fun path => (fs.fileAt? path).isSome := by
  rw [value_expand, value_expand]
  by_cases directory : fs.isDirectory input = true
  · obtain ⟨top, children, resolved⟩ := isDirectory_iff.mp directory
    obtain ⟨others, resolvedAfter⟩ := grown.resolve_directory resolved
    rw [if_pos directory, if_pos (isDirectory_iff.mpr ⟨top, others, resolvedAfter⟩)]
    cases spelled : isStandardInput input with
    | true =>
      rw [walk, walk, if_pos spelled, if_pos spelled]
      rfl
    | false =>
      rw [value_walk spelled resolved, value_walk spelled resolvedAfter,
        counted_of_grows tidy tidyAfter grown resolved resolvedAfter, List.filter_map]
      rfl
  rw [if_neg directory]
  by_cases file : fs.isFile input = true
  · obtain ⟨usable, place, found⟩ := isFile_iff.mp file
    have fileAfter := isFile_iff.mpr ⟨usable, place, grown.fileAt? found⟩
    have plain : ¬ after.isDirectory input = true := by
      intro directoryAfter
      rw [isFile_eq_false_of_isDirectory directoryAfter] at fileAfter
      cases fileAfter
    rw [if_neg plain, file, fileAfter]
    split <;> simp [found]
  · -- A path to a file would have led through the input, or been the input itself.
    rw [if_neg (fun h => file h.1)]
    refine (List.filter_eq_nil_iff.mpr ?_).symm
    intro path member known
    obtain ⟨place, found⟩ := Option.isSome_iff_exists.mp known
    split at member
    · next directoryAfter =>
      obtain ⟨usable, location, nonempty, valid, rfl⟩ :=
        exists_of_mem_walk tidyAfter directoryAfter member
      exact directory (isDirectory_of_fileAt?_pathBelow usable valid nonempty found)
    · split at member
      · next taken =>
        obtain rfl := List.mem_singleton.mp member
        exact file (isFile_iff.mpr ⟨(isFile_iff.mp taken.1).1, place, found⟩)
      · exact absurd member List.not_mem_nil

end Grown

/-! ### First paths -/

theorem firstPaths_append (paths more : List String) :
    firstPaths fs (paths ++ more) =
      firstPaths fs paths ++
        (firstPaths fs more).filter fun path => identity fs path ∉ paths.map (identity fs) := by
  induction paths with
  | nil => simp [firstPaths]
  | cons path rest ih =>
    rw [List.cons_append, firstPaths, ih, List.filter_append, List.filter_filter, firstPaths,
      List.cons_append]
    refine congrArg (fun others => path :: (_ ++ others)) (List.filter_congr fun other _ => ?_)
    simp

/-- Some path is the first one to a file. -/
theorem exists_first (fs : FileSystem) {paths : List String} (member : path ∈ paths) :
    ∃ front kept rest, paths = front ++ kept :: rest ∧ identity fs kept = identity fs path ∧
      identity fs path ∉ front.map (identity fs) := by
  obtain ⟨front, rest, whole, fresh⟩ := List.eq_append_cons_of_mem
    (List.mem_map.mpr ⟨path, member, rfl⟩ : identity fs path ∈ paths.map (identity fs))
  obtain ⟨front, last, rfl, rfl, equal⟩ := List.map_eq_append_iff.mp whole
  obtain ⟨kept, rest, rfl, same, -⟩ := List.map_eq_cons_iff.mp equal
  exact ⟨front, kept, rest, rfl, same, fresh⟩

theorem eq_of_mem_firstPaths {paths : List String} {other : String}
    (first : path ∈ firstPaths fs paths) (second : other ∈ firstPaths fs paths)
    (same : identity fs path = identity fs other) : path = other :=
  List.inj_on_of_nodup_map (nodup_firstPaths paths) first second same

theorem firstPaths_congr {paths : List String}
    (same : ∀ path ∈ paths, identity after path = identity fs path) :
    firstPaths after paths = firstPaths fs paths := by
  induction paths with
  | nil => rfl
  | cons path rest ih =>
    obtain ⟨own, others⟩ := List.forall_mem_cons.mp same
    rw [firstPaths, firstPaths, ih others, own]
    refine congrArg (path :: ·) (List.filter_congr fun other member => ?_)
    rw [others other (firstPaths_subset member)]

/-- Among more paths a file is kept no later: of what is kept before it there, everything that was
kept among fewer paths was kept before it among them. -/
theorem exists_split_of_filter {paths before later : List String} {known : String → Bool}
    (split : firstPaths fs (paths.filter known) = before ++ path :: later) :
    ∃ front kept rest, firstPaths fs paths = front ++ kept :: rest ∧
      identity fs kept = identity fs path ∧
      ∀ other ∈ front, other ∈ firstPaths fs (paths.filter known) → other ∈ before := by
  have own : path ∈ firstPaths fs (paths.filter known) := by simp [split]
  obtain ⟨member, -⟩ := List.mem_filter.mp (firstPaths_subset own)
  obtain ⟨front, kept, rest, rfl, same, fresh⟩ := exists_first fs member
  obtain ⟨more, kepts⟩ : ∃ more,
      firstPaths fs (front ++ kept :: rest) = firstPaths fs front ++ kept :: more := by
    rw [firstPaths_append, firstPaths, List.filter_cons_of_pos (by simpa [same] using fresh)]
    exact ⟨_, rfl⟩
  refine ⟨firstPaths fs front, kept, more, kepts, same, ?_⟩
  intro other inFront found
  obtain ⟨others, parts⟩ : ∃ others, firstPaths fs ((front ++ kept :: rest).filter known) =
      firstPaths fs (front.filter known) ++ others := by
    rw [List.filter_append, firstPaths_append]
    exact ⟨_, rfl⟩
  -- The other path is the first one to its file among those in front, known or not.
  have inFirst : other ∈ firstPaths fs (front.filter known) := by
    have knows := (List.mem_filter.mp (firstPaths_subset found)).2
    have inKnown : other ∈ front.filter known :=
      List.mem_filter.mpr ⟨firstPaths_subset inFront, knows⟩
    obtain ⟨first, inFirst, equal⟩ : ∃ first ∈ firstPaths fs (front.filter known),
        identity fs first = identity fs other := exists_mem_firstPaths inKnown
    have inWhole : first ∈ firstPaths fs ((front ++ kept :: rest).filter known) :=
      parts ▸ List.mem_append_left others inFirst
    exact eq_of_mem_firstPaths inWhole found equal ▸ inFirst
  rw [parts] at split
  rcases List.append_eq_append_iff.mp split with ⟨more, rfl, -⟩ | ⟨more, equal, tail⟩
  · exact List.mem_append_left _ inFirst
  · cases more with
    | nil =>
      rw [equal, List.append_nil] at inFirst
      exact inFirst
    | cons first more =>
      obtain ⟨rfl, -⟩ := List.cons.inj tail
      have inside : path ∈ firstPaths fs (front.filter known) := by simp [equal]
      have inFront := (List.mem_filter.mp (firstPaths_subset inside)).1
      exact absurd (List.mem_map.mpr ⟨path, inFront, rfl⟩) fresh

/-- What was discovered are the first of the paths that led to files before. -/
theorem value_discover_of_grows (tidy : fs.IsTidy) (tidyAfter : after.IsTidy)
    (grown : Grows fs after written) (config : ScanConfig) (inputs : List String) :
    (discover fs config inputs).value =
      firstPaths after ((inputs.flatMap fun input => (expand after config input).value).filter
        fun path => (fs.fileAt? path).isSome) := by
  rw [value_discover, List.filter_flatMap]
  simp only [value_expand_of_grows tidy tidyAfter grown]
  refine (firstPaths_congr fun path member => ?_).symm
  obtain ⟨input, -, inside⟩ := List.mem_flatMap.mp member
  obtain ⟨place, known⟩ := Option.isSome_iff_exists.mp (List.mem_filter.mp inside).2
  exact identity_of_grows grown known

/-- A file is discovered no later: of what is discovered before it in the tree that has grown,
everything that was discovered was discovered before it. -/
theorem exists_split_of_grows (tidy : fs.IsTidy) (tidyAfter : after.IsTidy)
    (grown : Grows fs after written) {inputs before later : List String}
    (split : (discover fs config inputs).value = before ++ path :: later) :
    ∃ front kept rest, (discover after config inputs).value = front ++ kept :: rest ∧
      identity after kept = identity after path ∧
      ∀ other ∈ front, other ∈ (discover fs config inputs).value → other ∈ before := by
  rw [value_discover_of_grows tidy tidyAfter grown] at split ⊢
  rw [value_discover]
  exact exists_split_of_filter split

/-- Every path that is discovered leads to a file. -/
theorem exists_fileAt?_of_mem_discover (tidy : fs.IsTidy) {inputs : List String}
    (member : path ∈ (discover fs config inputs).value) :
    ∃ location, fs.fileAt? path = some location := by
  rw [value_discover_of_grows tidy tidy (.refl fs)] at member
  exact Option.isSome_iff_exists.mp (List.mem_filter.mp (firstPaths_subset member)).2

end LuaDecl.Discovery
