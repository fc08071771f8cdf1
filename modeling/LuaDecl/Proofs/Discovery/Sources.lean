import LuaDecl.Proofs.Discovery.Growth
import LuaDecl.Proofs.FileSystem.Limits

/-!
# Sources below a directory

The files that a walk finds depend on the directory and not on how it is spelled: they are the
sources below the directory (`mem_counted_iff_isSource`). The system's limits on paths and links
count the spelling too, so this holds for a spelling that leaves room for the sources.
-/

namespace LuaDecl.Discovery

open FileSystem

variable {fs : FileSystem} {config : ScanConfig} {input : String} {top location place : Location}
  {name : String} {content : ByteArray} {children : List (String × Entry)}

/-! ### Spellings -/

/-- At the location below the directory stands a source: an accepted file, or an accepted link that
leads to a file, with no directory above it that is left out. -/
structure IsSource (fs : FileSystem) (config : ScanConfig) (top location : Location) : Prop where
  unskipped : ∀ name ∈ location.dropLast, config.skips name = false
  accepted : ∃ name, location.getLast? = some name ∧ isAccepted config name = true
  stands : (∃ content, fs.entryAt? (top ++ location) = some (.file content)) ∨
    ∃ target, fs.entryAt? (top ++ location) = some (.link target)
  leads : ∃ place content,
    Leads fs .reach linkLimit top location (.present place (.file content))

/-- A directory that is spelled as the input leaves room for the source below it: its path is short
enough, the links of the spelling and those below it are together not too many, and the file has a
canonical path. -/
structure LeavesRoom (fs : FileSystem) (top : Location) (input : String) (location : Location) :
    Prop where
  short : (pathBelow input location).utf8ByteSize < pathLimit
  links : ∃ own below children place content, own + below ≤ linkLimit ∧
    Leads fs .reach own (startOf fs.workingDirectory input) (Path.steps input)
      (.present top (.directory children)) ∧
    Leads fs .reach below top location (.present place (.file content))
  canonical : (fs.locate? (pathBelow input location)).isSome = true

/-- The input spells the directory at a location, not as the standard input, and leaves room for the
sources below it. -/
structure Spells (fs : FileSystem) (config : ScanConfig) (top : Location) (input : String) :
    Prop where
  directory : fs.isDirectory input = true
  canonical : fs.locate? input = some top
  notStandardInput : Path.components input ≠ ["-"]
  room : ∀ location, IsSource fs config top location → LeavesRoom fs top input location

/-! ### Paths below a spelling -/

/-- A name that is joined to a path makes it longer, by the name and a slash at most. -/
theorem utf8ByteSize_join (directory name : String) :
    directory.utf8ByteSize ≤ (Path.join directory name).utf8ByteSize ∧
      (Path.join directory name).utf8ByteSize ≤
        directory.utf8ByteSize + (name.utf8ByteSize + 1) := by
  have slash : "/".utf8ByteSize = 1 := rfl
  unfold Path.join
  split
  · rw [String.utf8ByteSize_append]
    omega
  · rw [String.utf8ByteSize_append, String.utf8ByteSize_append, slash]
    omega

theorem utf8ByteSize_le_pathBelow (directory : String) (location : Location) :
    directory.utf8ByteSize ≤ (pathBelow directory location).utf8ByteSize := by
  induction location generalizing directory with
  | nil => exact Nat.le_refl _
  | cons name rest ih =>
    exact Nat.le_trans (utf8ByteSize_join directory name).1 (ih (Path.join directory name))

theorem utf8ByteSize_pathBelow_le (directory : String) (location : Location) :
    (pathBelow directory location).utf8ByteSize ≤
      directory.utf8ByteSize + nameBytes location := by
  induction location generalizing directory with
  | nil => exact Nat.le_refl _
  | cons name rest ih =>
    have joined := (utf8ByteSize_join directory name).2
    refine Nat.le_trans (ih (Path.join directory name)) ?_
    rw [nameBytes]
    omega

/-- The system takes a path below a directory if it takes the characters in it and there is room.
-/
theorem isUsable_pathBelow {directory : String} (nonempty : directory ≠ "")
    (noNul : '\x00' ∉ directory.toList) (names : ∀ name ∈ location, '\x00' ∉ name.toList)
    (short : directory.utf8ByteSize + nameBytes location < pathLimit) :
    IsUsable (pathBelow directory location) := by
  refine ⟨?_, ?_, Nat.lt_of_le_of_lt (utf8ByteSize_pathBelow_le directory location) short⟩
  · clear short nonempty
    have inside : '\x00' ∉ (pathBelow directory location).toList := by
      induction location generalizing directory with
      | nil => exact noNul
      | cons name rest ih =>
        obtain ⟨first, others⟩ := List.forall_mem_cons.mp names
        refine ih ?_ others
        unfold Path.join
        split <;> simp [noNul, first]
    simpa using inside
  · refine Bool.eq_false_iff.mpr fun empty => ?_
    have longer := utf8ByteSize_le_pathBelow directory location
    rw [String.isEmpty_iff.mp empty] at longer
    exact nonempty (String.utf8ByteSize_eq_zero_iff.mp (Nat.le_zero.mp longer))

theorem fileName?_pathBelow (directory : String) (valid : ∀ name ∈ location, IsName name)
    (last : location.getLast? = some name) :
    Path.fileName? (pathBelow directory location) = some name := by
  obtain ⟨front, rfl⟩ := List.getLast?_eq_some_iff.mp last
  have proper := (valid name (by simp)).proper
  have kept : [name].filter (· ≠ ".") = [name] := by simp [proper.notDot]
  rw [Path.fileName?, names_pathBelow directory valid, ← List.append_assoc, List.filter_append,
    kept, List.getLast?_concat]
  split
  · next equal => exact absurd (Option.some.inj equal) proper.notDots
  · rfl

/-- A path below a directory is accepted for its last name. -/
theorem isAccepted_pathBelow (directory : String) (valid : ∀ name ∈ location, IsName name)
    (last : location.getLast? = some name) :
    isAccepted config (pathBelow directory location) = isAccepted config name := by
  have own : Path.fileName? name = some name := by
    have single : Path.fileName? (pathBelow "" [name]) = some name :=
      fileName?_pathBelow "" (by simpa using valid name (List.mem_of_getLast? last)) rfl
    simpa [pathBelow, Path.join] using single
  simp only [isAccepted, Path.extension?, fileName?_pathBelow directory valid last, own]

/-- An input that can be spelled leads to the directory there. -/
theorem resolve_of_locate? (directory : fs.isDirectory input = true)
    (canonical : fs.locate? input = some top) :
    ∃ children, fs.resolve input = .ok (.present top (.directory children)) := by
  obtain ⟨place, children, resolved⟩ := isDirectory_iff.mp directory
  obtain ⟨-, leads⟩ := resolve_eq_ok_iff.mp resolved
  obtain ⟨-, -, entry, followed⟩ := locate?_eq_some_iff.mp canonical
  have spelled := (follow_eq_ok_iff.mp followed).reach (by nofun)
  obtain ⟨rfl, -⟩ := Place.present.inj (leads.unique spelled)
  exact ⟨children, resolved⟩

/-- An input leads to the directory that it is followed to while the locations are spelled. -/
theorem resolve_of_spell {directory : Location} {steps : List String} (usable : IsUsable input)
    (start : startOf fs.workingDirectory input = directory) (spelled : Path.steps input = steps)
    (leads : Leads fs .spell linkLimit directory steps (.present top (.directory children))) :
    fs.resolve input = .ok (.present top (.directory children)) ∧ fs.locate? input = some top := by
  subst start spelled
  exact ⟨resolve_eq_ok_iff.mpr ⟨usable, leads.reach (by nofun)⟩,
    locate?_eq_some_iff.mpr ⟨usable.noNul, usable.notEmpty, _, follow_eq_ok_iff.mpr leads⟩⟩

theorem IsSource.ne_nil (source : IsSource fs config top location) : location ≠ [] := by
  rintro rfl
  obtain ⟨name, last, -⟩ := source.accepted
  cases last

theorem IsSource.isName (source : IsSource fs config top location) (tidy : fs.IsTidy) :
    ∀ name ∈ location, IsName name := by
  rcases source.stands with ⟨content, stands⟩ | ⟨target, stands⟩
  · exact tidy.isName_of_mem stands
  · exact tidy.isName_of_mem stands

/-- With room for it, the path to a source leads where the location leads from the directory. -/
theorem LeavesRoom.resolve (room : LeavesRoom fs top input location)
    (valid : ∀ name ∈ location, IsName name) (nonempty : location ≠ [])
    (leads : Leads fs .reach linkLimit top location (.present place (.file content))) :
    fs.resolve (pathBelow input location) = .ok (.present place (.file content)) := by
  obtain ⟨spelled, canonical⟩ := Option.isSome_iff_exists.mp room.canonical
  obtain ⟨noNul, notEmpty, -⟩ := locate?_eq_some_iff.mp canonical
  obtain ⟨own, below, children, goal, new, few, outer, inner⟩ := room.links
  have same := (inner.mono (Nat.le_trans (Nat.le_add_left below own) few)).unique leads
  have whole := ((outer.trim (trims_names input)).append_links rfl (same ▸ inner)).mono few
  refine resolve_eq_ok_iff.mpr ⟨⟨noNul, notEmpty, room.short⟩, ?_⟩
  rw [steps_pathBelow input valid nonempty, startOf, isAbsolute_pathBelow input valid]
  exact whole

theorem LeavesRoom.locate? (room : LeavesRoom fs top input location)
    (resolved : fs.resolve (pathBelow input location) = .ok (.present place (.file content))) :
    fs.locate? (pathBelow input location) = some place := by
  obtain ⟨spelled, canonical⟩ := Option.isSome_iff_exists.mp room.canonical
  rw [canonical, eq_of_locate? (fileAt?_of_resolve resolved) canonical]

/-! ### Walks -/

/-- However the directory is spelled, a walk counts the sources below it. -/
theorem mem_counted_iff_isSource (tidy : fs.IsTidy) (spells : Spells fs config top input)
    (resolved : fs.resolve input = .ok (.present top (.directory children))) :
    location ∈ counted fs config input children ↔ IsSource fs config top location := by
  obtain ⟨-, outer⟩ := resolve_eq_ok_iff.mp resolved
  rw [mem_counted_iff tidy outer.isIn]
  constructor
  · rintro ⟨nonempty, reached, accepted, stands⟩
    have valid : ∀ name ∈ location, IsName name := by
      rcases stands with ⟨content, stands⟩ | ⟨⟨target, stands⟩, -⟩
      · exact tidy.isName_of_mem stands
      · exact tidy.isName_of_mem stands
    have last := List.getLast?_eq_some_getLast nonempty
    rw [isAccepted_pathBelow input valid last] at accepted
    refine ⟨reached.unskipped, ⟨_, last, accepted⟩, stands.imp_right And.left, ?_⟩
    rcases stands with ⟨content, stands⟩ | ⟨-, isFile⟩
    · exact ⟨_, content, tidy.leads_down stands (by simp)⟩
    · obtain ⟨-, place, found⟩ := isFile_iff.mp isFile
      obtain ⟨content, whole⟩ := fileAt?_eq_some_iff.mp found
      rw [steps_pathBelow input valid nonempty, startOf, isAbsolute_pathBelow input valid] at whole
      exact ⟨place, content, (outer.trim (trims_names input)).rest rfl whole⟩
  · intro source
    have room := spells.room location source
    obtain ⟨place, content, leads⟩ := source.leads
    have isFile := room.resolve (source.isName tidy) source.ne_nil leads
    obtain ⟨name, last, accepted⟩ := source.accepted
    rw [← isAccepted_pathBelow input (source.isName tidy) last] at accepted
    refine ⟨source.ne_nil, ⟨source.unskipped, ?_⟩, accepted, source.stands.imp_right fun stands =>
      ⟨stands, isFile_iff.mpr ⟨(resolve_eq_ok_iff.mp isFile).1, place, fileAt?_of_resolve isFile⟩⟩⟩
    rintro above rest rfl - -
    have shorter : (pathBelow input above).utf8ByteSize ≤
        (pathBelow input (above ++ rest)).utf8ByteSize := by
      rw [pathBelow, pathBelow, List.foldl_append]
      exact utf8ByteSize_le_pathBelow _ rest
    exact decide_eq_true (Nat.lt_of_le_of_lt shorter room.short)

/-! ### Files that are found -/

/-- A file, or a link to one, that a walk comes to is found if it is accepted. -/
theorem pathBelow_mem_expand (tidy : fs.IsTidy)
    (spells : fs.isDirectory input = true ∧ fs.locate? input = some top)
    (notStandardInput : Path.components input ≠ ["-"]) (nonempty : location ≠ [])
    (reached : Reached config.skips (isOpenable input) location)
    (accepted : isAccepted config (pathBelow input location) = true)
    (stands : (∃ content, fs.entryAt? (top ++ location) = some (.file content)) ∨
      (∃ target, fs.entryAt? (top ++ location) = some (.link target)) ∧
        fs.isFile (pathBelow input location) = true) :
    pathBelow input location ∈ (expand fs config input).value := by
  obtain ⟨children, resolved⟩ := resolve_of_locate? spells.1 spells.2
  rw [value_expand, if_pos spells.1, value_walk (decide_eq_false notStandardInput) resolved]
  refine List.mem_map.mpr ⟨location, ?_, rfl⟩
  exact (mem_counted_iff tidy (resolve_eq_ok_iff.mp resolved).2.isIn).mpr
    ⟨nonempty, reached, accepted, stands⟩

/-- Where a file or link stands alone in a directory, nothing else stands below the directory. -/
theorem eq_of_stands_alone {child entry : Entry}
    (alone : fs.entryAt? top = some (.directory [(name, child)]))
    (plain : ∀ below, child ≠ .directory below)
    (stands : fs.entryAt? (top ++ location) = some entry) (nonempty : location ≠ []) :
    location = [name] ∧ entry = child := by
  obtain ⟨first, rest, rfl⟩ := List.exists_cons_of_ne_nil nonempty
  rw [entryAt?_append alone, Entry.at?_directory_cons] at stands
  obtain ⟨found, listed, further⟩ := Option.bind_eq_some_iff.mp stands
  rw [Entry.lookup_cons_eq] at listed
  split at listed
  · next same =>
    subst same
    obtain rfl := Option.some.inj listed
    cases rest with
    | nil =>
      rw [Entry.at?_nil] at further
      exact ⟨rfl, (Option.some.inj further).symm⟩
    | cons second rest =>
      cases child with
      | directory below => exact absurd rfl (plain below)
      | file content => cases further
      | link target => cases further
  · cases listed

end LuaDecl.Discovery
