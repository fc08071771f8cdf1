import LuaDecl.FileSystem.Access
import LuaDecl.Proofs.FileSystem.Follow
import LuaDecl.Proofs.FileSystem.Put

/-!
# Trees that grow

What making directories and writing a file do to a tree: new directories stand where nothing stood,
one file is written where nothing or a file stood, and everything else is as it was. A path that led
somewhere before leads there afterwards (`Grows.follow`), so a file that was written is what its
path leads to (`Grows.resolve`).
-/

namespace LuaDecl.FileSystem

/-! ### Places -/

/-- The location of what stands or could stand at a place. -/
def Place.location : Place → Location
  | present location _ => location
  | vacant directory name => directory ++ [name]

variable {fs before after : FileSystem} {intent : Intent} {links : Nat}
  {directory location : Location} {steps : List String} {place : Place} {written : Option Location}

/-- The place is one of the tree: its entry stands there, or its name is free in a directory. -/
def Place.IsIn (fs : FileSystem) : Place → Prop
  | present location entry => fs.entryAt? location = some entry
  | vacant directory name =>
    fs.holdsDirectory directory = true ∧ fs.entryAt? (directory ++ [name]) = none ∧ IsProper name

theorem IsClear.proper {name : String} {rest : List String}
    (clear : IsClear intent directory name rest) : IsProper name := by
  have free := clear.noObstacle
  refine ⟨clear.ordinary.notEmpty, clear.ordinary.notDot, clear.ordinary.notDots, ?_⟩
  unfold obstacle? at free
  split at free
  · cases free
  · split at free
    · cases free
    · omega

theorem IsProper.clear {name : String} {rest : List String} (h : IsProper name) :
    IsClear .reach directory name rest :=
  ⟨h.ordinary, h.no_obstacle⟩

theorem IsProper.clear_inspect {name : String} {rest : List String} (h : IsProper name) :
    IsClear .inspect directory name rest := by
  have short : ¬ nameLimit < name.utf8ByteSize := Nat.not_lt.mpr h.short
  exact ⟨h.ordinary, by simp only [obstacle?, reduceCtorEq, false_and, if_false, short]⟩

/-- A path leads to a place of the tree. -/
theorem Leads.isIn (leads : Leads fs intent links directory steps place) : place.IsIn fs := by
  induction leads with
  | arrive there => exact there
  | stay _ _ ih | up _ ih | enter _ _ _ ih | through _ _ _ _ _ ih => exact ih
  | free clear vacant above => exact ⟨above, vacant, clear.proper⟩
  | file _ there => exact there
  | link _ there _ => exact there

/-- A path that leads to a place for any purpose leads there when it is followed to reach what is
there, unless it was to inspect a link. -/
theorem Leads.reach
    (plain : intent = .inspect → ∀ location target, place ≠ .present location (.link target))
    (leads : Leads fs intent links directory steps place) :
    Leads fs .reach links directory steps place := by
  induction leads with
  | arrive there => exact .arrive there
  | stay stays _ ih => exact .stay stays (ih plain)
  | up _ ih => exact .up (ih plain)
  | free clear vacant above => exact .free clear.proper.clear vacant above
  | enter clear there _ ih => exact .enter clear.proper.clear there (ih plain)
  | file clear there => exact .file clear.proper.clear there
  | link _ _ inspects => exact absurd rfl (plain inspects _ _)
  | through clear there _ spelled _ ih =>
    exact .through clear.proper.clear there (by simp) spelled (ih plain)

/-! ### Growth -/

/-- From one tree to the other directories were made where nothing stood and, if a location is
given, a file was written there. -/
structure Grows (before after : FileSystem) (written : Option Location) : Prop where
  workingDirectory : after.workingDirectory = before.workingDirectory
  others : ∀ location, written ≠ some location →
    after.bareAt? location = before.bareAt? location ∨
      before.bareAt? location = none ∧ after.bareAt? location = some (.directory [])
  file : ∀ location, written = some location →
    (before.bareAt? location = none ∨ ∃ content, before.bareAt? location = some (.file content)) ∧
      ∃ content, after.bareAt? location = some (.file content)

namespace Grows

theorem refl (fs : FileSystem) : Grows fs fs none where
  workingDirectory := rfl
  others := fun _ _ => Or.inl rfl
  file := by simp

theorem trans {middle : FileSystem} (first : Grows before middle none)
    (second : Grows middle after written) : Grows before after written where
  workingDirectory := second.workingDirectory.trans first.workingDirectory
  others := by
    intro location apart
    rcases second.others location apart with same | ⟨free, made⟩
    · rw [same]
      exact first.others location (by simp)
    · refine Or.inr ⟨?_, made⟩
      rcases first.others location (by simp) with same | ⟨none, -⟩
      · rw [← same, free]
      · exact none
  file := by
    intro location here
    obtain ⟨old, new⟩ := second.file location here
    refine ⟨?_, new⟩
    rcases first.others location (by simp) with same | ⟨none, -⟩
    · rwa [← same]
    · exact Or.inl none

/-- Directories stay. -/
theorem exists_directory (h : Grows before after written) {children : List (String × Entry)}
    (there : before.entryAt? location = some (.directory children)) :
    ∃ others, after.entryAt? location = some (.directory others) := by
  have known : before.bareAt? location = some (.directory []) :=
    bareAt?_eq_directory_iff.mpr ⟨children, there⟩
  by_cases here : written = some location
  · rcases (h.file location here).1 with none | ⟨content, file⟩
    · simp [known] at none
    · simp [known] at file
  · rcases h.others location here with same | ⟨none, -⟩
    · exact bareAt?_eq_directory_iff.mp (same.trans known)
    · simp [known] at none

/-- Links stay. -/
theorem link (h : Grows before after written) {target : String}
    (there : before.entryAt? location = some (.link target)) :
    after.entryAt? location = some (.link target) := by
  have known := bareAt?_eq_link_iff.mpr there
  by_cases here : written = some location
  · rcases (h.file location here).1 with none | ⟨content, file⟩
    · simp [known] at none
    · simp [known] at file
  · rcases h.others location here with same | ⟨none, -⟩
    · exact bareAt?_eq_link_iff.mp (same.trans known)
    · simp [known] at none

/-- Files stay as they are, but for the one that was written. -/
theorem file_iff (h : Grows before after written) (apart : written ≠ some location)
    {content : ByteArray} :
    after.entryAt? location = some (.file content) ↔
      before.entryAt? location = some (.file content) := by
  rw [← bareAt?_eq_file_iff, ← bareAt?_eq_file_iff]
  rcases h.others location apart with same | ⟨none, made⟩
  · rw [same]
  · simp [none, made]

/-- A file stays a file. -/
theorem exists_file (h : Grows before after written) {content : ByteArray}
    (there : before.entryAt? location = some (.file content)) :
    ∃ content, after.entryAt? location = some (.file content) := by
  by_cases here : written = some location
  · obtain ⟨new, written⟩ := (h.file location here).2
    exact ⟨new, bareAt?_eq_file_iff.mp written⟩
  · exact ⟨content, (h.file_iff here).mpr there⟩

/-- No link is new. -/
theorem of_link (h : Grows before after written) {target : String}
    (there : after.entryAt? location = some (.link target)) :
    before.entryAt? location = some (.link target) := by
  rw [← bareAt?_eq_link_iff] at there ⊢
  by_cases here : written = some location
  · obtain ⟨content, file⟩ := (h.file location here).2
    simp [there] at file
  · rcases h.others location here with same | ⟨-, made⟩
    · exact same.symm.trans there
    · simp [there] at made

/-- A path that led to a place leads to what stands there afterwards. -/
theorem leads (h : Grows before after written) {entry : Entry}
    (led : Leads before intent links directory steps place)
    (there : after.entryAt? place.location = some entry) :
    Leads after intent links directory steps (.present place.location entry) := by
  induction led with
  | arrive _ => exact .arrive there
  | stay stays _ ih => exact .stay stays (ih there)
  | up _ ih => exact .up (ih there)
  | free clear vacant _ =>
    cases entry with
    | directory children => exact .enter clear there (.arrive there)
    | file content => exact .file clear there
    | link target => cases vacant.symm.trans (h.of_link there)
  | enter clear stood _ ih =>
    obtain ⟨others, stands⟩ := h.exists_directory stood
    exact .enter clear stands (ih there)
  | file clear stood =>
    obtain ⟨content, stands⟩ := h.exists_file stood
    obtain rfl : Entry.file content = entry := Option.some.inj (stands.symm.trans there)
    exact .file clear stands
  | link clear stood inspects =>
    have stands := h.link stood
    obtain rfl : Entry.link _ = entry := Option.some.inj (stands.symm.trans there)
    exact .link clear stands inspects
  | through clear stood on spelled _ ih => exact .through clear (h.link stood) on spelled (ih there)

end Grows

/-! ### Operations -/

/-- A path leads to a place if it is a path at all and its steps lead there. -/
theorem followPath_eq_ok_iff {path : String} (named : intent ≠ .spell) :
    fs.followPath intent path steps = .ok place ↔
      IsUsable path ∧ Leads fs intent linkLimit (startOf fs.workingDirectory path) steps place := by
  rw [← follow_eq_ok_iff]
  constructor
  · intro followed
    unfold followPath at followed
    split at followed
    · cases followed
    · next noNul =>
      split at followed
      · cases followed
      · next notEmpty =>
        split at followed
        · cases followed
        · next long =>
          have short : path.utf8ByteSize < pathLimit :=
            Nat.lt_of_not_le fun large => long ⟨named, large⟩
          exact ⟨⟨Bool.eq_false_iff.mpr noNul, Bool.eq_false_iff.mpr notEmpty, short⟩, followed⟩
  · rintro ⟨usable, followed⟩
    have long : ¬ (intent ≠ .spell ∧ pathLimit ≤ path.utf8ByteSize) :=
      fun h => absurd usable.short (Nat.not_lt.mpr h.2)
    simpa only [followPath, usable.noNul, usable.notEmpty, if_neg long, Bool.false_eq_true,
      if_false, startOf] using followed

theorem Grows.resolve_of_leads {path : String} {entry : Entry} (h : Grows before after written)
    (usable : IsUsable path)
    (led : Leads before .reach linkLimit (startOf before.workingDirectory path) (Path.steps path)
      place)
    (there : after.entryAt? place.location = some entry) :
    after.resolve path = .ok (.present place.location entry) := by
  refine (followPath_eq_ok_iff (by decide)).mpr ⟨usable, ?_⟩
  rw [h.workingDirectory]
  exact h.leads led there

/-- A directory is made at a free name. -/
theorem grows_makeDirectory {path : String} {made : FileSystem}
    (succeeds : fs.makeDirectory path = .ok made) : Grows fs made none := by
  unfold makeDirectory at succeeds
  split at succeeds
  · cases succeeds
  · next directory name followed =>
    obtain rfl := Except.ok.inj succeeds
    obtain ⟨-, leads⟩ := (followPath_eq_ok_iff (by decide)).mp followed
    obtain ⟨above, vacant, -⟩ := leads.isIn
    refine ⟨workingDirectory_putAt _ _ _, ?_, by simp⟩
    intro location _
    by_cases here : location = directory ++ [name]
    · subst here
      exact Or.inr ⟨bareAt?_eq_none_iff.mpr vacant,
        bareAt?_eq_directory_iff.mpr ⟨[], entryAt?_putAt_self above⟩⟩
    · exact Or.inl (bareAt?_putAt above Entry.isChildless_empty (by simp [vacant]) here)
  · cases succeeds

/-- What every new directory on the way preserves holds when a directory is made with its ancestors.
-/
theorem makeWithAncestors_induction {motive : FileSystem → Prop} (path : String)
    (ancestors : List String)
    (step : ∀ fs made, ∀ own ∈ path :: ancestors, motive fs → fs.makeDirectory own = .ok made →
      motive made)
    (start : motive fs) : motive (fs.makeWithAncestors path ancestors).1 := by
  induction ancestors generalizing path fs with
  | nil =>
    rw [makeWithAncestors]
    split
    · next made succeeds => exact step _ _ _ List.mem_cons_self start succeeds
    · exact start
    · exact start
  | cons parent more ih =>
    rw [makeWithAncestors]
    split
    · next made succeeds => exact step _ _ _ List.mem_cons_self start succeeds
    · have above := ih parent (fun fs made own member => step fs made own (.tail _ member)) start
      split
      · next result => rwa [result] at above
      · next result =>
        rw [result] at above
        split
        · next made succeeds => exact step _ _ _ List.mem_cons_self above succeeds
        · exact above
    · exact start

theorem grows_makeDirectories (fs : FileSystem) (path : String) :
    Grows fs (fs.makeDirectories path).1 none := by
  apply makeWithAncestors_induction (motive := fun made => Grows fs made none)
  · intro middle made own _ grown succeeds
    exact grown.trans (grows_makeDirectory succeeds)
  · exact .refl fs

section PutFile

variable {name : String} (content : ByteArray) (above : fs.holdsDirectory directory = true)
  (old : fs.entryAt? (directory ++ [name]) = none ∨
    ∃ old, fs.entryAt? (directory ++ [name]) = some (.file old))

include above old

/-- Where a file is put at a free name or over another file, nothing else changes. -/
theorem bareAt?_putAt_file (apart : location ≠ directory ++ [name]) :
    (fs.putAt (directory ++ [name]) (.file content)).bareAt? location = fs.bareAt? location := by
  have free : ∀ children, fs.entryAt? (directory ++ [name]) ≠ some (.directory children) := by
    rcases old with none | ⟨old, file⟩
    · simp [none]
    · simp [file]
  exact bareAt?_putAt above (Entry.isChildless_file content) free apart

/-- A file is put into a directory, at a free name or over another file. -/
theorem grows_putAt_file :
    Grows fs (fs.putAt (directory ++ [name]) (.file content)) (some (directory ++ [name])) where
  workingDirectory := workingDirectory_putAt _ _ _
  others := by
    intro location apart
    have other : location ≠ directory ++ [name] := fun equal => apart (congrArg some equal.symm)
    exact Or.inl (bareAt?_putAt_file content above old other)
  file := by
    intro location equal
    obtain rfl := Option.some.inj equal
    refine ⟨?_, content, bareAt?_eq_file_iff.mpr (entryAt?_putAt_self above)⟩
    exact old.imp bareAt?_eq_none_iff.mpr fun ⟨old, file⟩ => ⟨old, bareAt?_eq_file_iff.mpr file⟩

end PutFile

/-- To change what the devices take changes nothing in the tree. -/
theorem Grows.withLimit (grown : Grows before after written)
    (limit : Location → Option Limit) : Grows before { after with limit } written :=
  ⟨grown.workingDirectory, grown.others, grown.file⟩

/-! ### Writing -/

/-- How much of content is stored at a location: all of it or, where that is more than the limit
there, as much as the limit allows. -/
inductive Stored (fs : FileSystem) (location : Location) (content : ByteArray) :
    ByteArray → Except Fault Unit → Prop
  | whole : (∀ limit, fs.limit location = some limit → content.size ≤ limit.bytes) →
      Stored fs location content content (.ok ())
  | cut {limit : Limit} : fs.limit location = some limit → limit.bytes < content.size →
      Stored fs location content (content.extract 0 limit.bytes) (.error (.device limit.fault))

theorem exists_stored (fs : FileSystem) (location : Location) (content : ByteArray) :
    ∃ part result, fs.store location content = (fs.putAt location (.file part), result) ∧
      Stored fs location content part result := by
  unfold store
  cases found : fs.limit location with
  | none => exact ⟨content, .ok (), rfl, .whole (by simp [found])⟩
  | some limit =>
    by_cases fits : content.size ≤ limit.bytes
    · refine ⟨content, .ok (), if_pos fits, .whole fun other same => ?_⟩
      obtain rfl := Option.some.inj (found.symm.trans same)
      exact fits
    · exact ⟨_, _, if_neg fits, .cut found (Nat.lt_of_not_le fits)⟩

/-- To write content to the path, a part of it was stored at the place that the path leads to, and
nothing else has changed. -/
structure Fills (fs made : FileSystem) (path : String) (content : ByteArray) (place : Place)
    (part : ByteArray) (result : Except Fault Unit) : Prop where
  usable : IsUsable path
  leads : Leads fs .create linkLimit (startOf fs.workingDirectory path) (Path.steps path) place
  grown : Grows fs made (some place.location)
  stands : made.entryAt? place.location = some (.file part)
  others : ∀ location ≠ place.location, made.bareAt? location = fs.bareAt? location
  stored : Stored fs place.location content part result

/-- A path that leads to a file, or to where one can be made, can be written to. -/
theorem exists_fills {path : String} {place : Place}
    (followed : fs.followPath .create path (Path.steps path) = .ok place)
    (isFile : (∃ directory name, place = .vacant directory name) ∨
      ∃ location old, place = .present location (.file old)) (content : ByteArray) :
    ∃ made part result, fs.write path content = (made, result) ∧
      Fills fs made path content place part result := by
  obtain ⟨usable, leads⟩ := (followPath_eq_ok_iff (by decide)).mp followed
  obtain ⟨part, result, store, stored⟩ := exists_stored fs place.location content
  have writes : fs.write path content = fs.store place.location content := by
    rcases isFile with ⟨directory, name, rfl⟩ | ⟨location, old, rfl⟩ <;>
      rw [write, followed] <;> rfl
  obtain ⟨directory, name, here, above, old⟩ : ∃ directory name,
      place.location = directory ++ [name] ∧ fs.holdsDirectory directory = true ∧
        (fs.entryAt? (directory ++ [name]) = none ∨
          ∃ old, fs.entryAt? (directory ++ [name]) = some (.file old)) := by
    rcases isFile with ⟨directory, name, rfl⟩ | ⟨location, old, rfl⟩
    · obtain ⟨above, vacant, -⟩ := leads.isIn
      exact ⟨directory, name, rfl, above, Or.inl vacant⟩
    · have there := leads.isIn
      obtain ⟨directory, name, above, rfl⟩ := exists_parent_of_file there
      exact ⟨directory, name, rfl, above, Or.inr ⟨old, there⟩⟩
  refine ⟨_, part, result, writes.trans store, usable, leads, ?_, ?_, ?_, stored⟩ <;> rw [here]
  · exact grows_putAt_file part above old
  · exact entryAt?_putAt_self above
  · exact fun location apart => bareAt?_putAt_file part above old apart

/-- A write is refused, or fills the file at the place that its path leads to. -/
theorem write_cases (fs : FileSystem) (path : String) (content : ByteArray) :
    (∃ fault, fs.write path content = (fs, .error fault)) ∨
      ∃ made place part result, fs.write path content = (made, result) ∧
        Fills fs made path content place part result := by
  cases followed : fs.followPath .create path (Path.steps path) with
  | error fault => exact Or.inl ⟨fault, by rw [write, followed]⟩
  | ok place =>
    cases place with
    | vacant directory name =>
      obtain ⟨made, filled⟩ := exists_fills followed (Or.inl ⟨directory, name, rfl⟩) content
      exact Or.inr ⟨made, _, filled⟩
    | present location entry =>
      cases entry with
      | file old =>
        obtain ⟨made, filled⟩ := exists_fills followed (Or.inr ⟨location, old, rfl⟩) content
        exact Or.inr ⟨made, _, filled⟩
      | directory children => exact Or.inl ⟨.isDirectory, by rw [write, followed]⟩
      | link target => exact Or.inl ⟨.notFound, by rw [write, followed]⟩

namespace Fills

variable {path : String} {content part : ByteArray} {place : Place} {result : Except Fault Unit}
  {made : FileSystem}

/-- The path leads to the file that was filled. -/
theorem resolve (h : Fills fs made path content place part result) :
    made.resolve path = .ok (.present place.location (.file part)) :=
  h.grown.resolve_of_leads h.usable (h.leads.reach (by nofun)) h.stands

/-- A file that was filled can be filled again, whatever the devices take by then. -/
theorem again (h : Fills fs made path content place part result)
    (limit : Location → Option Limit) (other : ByteArray) :
    ∃ last place part result, { made with limit }.write path other = (last, result) ∧
      Fills { made with limit } last path other place part result := by
  have grown := h.grown.withLimit limit
  have led := grown.leads h.leads h.stands
  rw [← grown.workingDirectory] at led
  have followed : { made with limit }.followPath .create path (Path.steps path) =
      .ok (.present place.location (.file part)) :=
    (followPath_eq_ok_iff (by decide)).mpr ⟨h.usable, led⟩
  obtain ⟨last, filled⟩ := exists_fills followed (Or.inr ⟨place.location, part, rfl⟩) other
  exact ⟨last, _, filled⟩

end Fills

/-- What makes directories keeps what the devices take. -/
theorem limit_makeDirectory {path : String} {made : FileSystem}
    (succeeds : fs.makeDirectory path = .ok made) : made.limit = fs.limit := by
  unfold makeDirectory at succeeds
  split at succeeds
  · cases succeeds
  · obtain rfl := Except.ok.inj succeeds
    exact limit_putAt _ _ _
  · cases succeeds

theorem limit_makeDirectories (fs : FileSystem) (path : String) :
    (fs.makeDirectories path).1.limit = fs.limit := by
  apply makeWithAncestors_induction (motive := fun made => made.limit = fs.limit)
  · intro middle made own _ same succeeds
    exact (limit_makeDirectory succeeds).trans same
  · rfl

end LuaDecl.FileSystem
