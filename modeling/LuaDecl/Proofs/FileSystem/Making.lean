import LuaDecl.Proofs.FileSystem.Passage

/-!
# Making directories

A directory that is made is what its path leads to afterwards, and all that is made before it are
directories that paths above that one lead to (`added_makeDirectories`). When a directory has been
made, its path leads to a directory (`isDirectory_of_makeDirectories`), and to make it again changes
nothing (`makeDirectories_of_isDirectory`).
-/

namespace LuaDecl.FileSystem

/-- The path is the parent of the other, or above its parent. The empty path is above none. -/
inductive Path.IsAbove : String → String → Prop
  | parent {above path} : parent? path = some above → above.isEmpty = false → IsAbove above path
  | further {above parent path} : parent? path = some parent → parent.isEmpty = false →
      IsAbove above parent → IsAbove above path

theorem Path.isAbove_of_mem_ancestors {above path : String} (member : above ∈ ancestors path) :
    IsAbove above path := by
  have within (fuel : Nat) : ∀ path, above ∈ ancestors.go fuel path → IsAbove above path := by
    induction fuel with
    | zero => exact fun path member => absurd member List.not_mem_nil
    | succ fuel ih =>
      intro path member
      unfold ancestors.go at member
      split at member
      · exact absurd member List.not_mem_nil
      · next parent found =>
        split at member
        · exact absurd member List.not_mem_nil
        · next nonempty =>
          have spelled : parent.isEmpty = false := Bool.eq_false_iff.mpr nonempty
          rcases List.mem_cons.mp member with rfl | later
          · exact .parent found spelled
          · exact .further found spelled (ih parent later)
  exact within path.length path member

variable {fs made : FileSystem} {path : String} {location : Location}

/-! ### One directory -/

/-- A directory that is made is what its path leads to, and nothing else is new. -/
theorem exists_of_makeDirectory (succeeds : fs.makeDirectory path = .ok made) :
    ∃ location children, made.resolve path = .ok (.present location (.directory children)) ∧
      ∀ other, other ≠ location → made.bareAt? other = fs.bareAt? other := by
  have grown := grows_makeDirectory succeeds
  unfold makeDirectory at succeeds
  split at succeeds
  · cases succeeds
  · next directory name followed =>
    obtain rfl := Except.ok.inj succeeds
    obtain ⟨usable, leads⟩ := (followPath_eq_ok_iff (by decide)).mp followed
    obtain ⟨above, vacant, -⟩ := leads.isIn
    have stands : (fs.putAt (directory ++ [name]) (.directory [])).entryAt? (directory ++ [name]) =
        some (.directory []) := entryAt?_putAt_self above
    have led := ((grown.leads leads stands).reach (by nofun)).steps_of_names
    rw [← grown.workingDirectory] at led
    refine ⟨directory ++ [name], [], resolve_eq_ok_iff.mpr ⟨usable, led⟩, fun other apart => ?_⟩
    exact bareAt?_putAt above Entry.isChildless_empty (by simp [vacant]) apart
  · cases succeeds

theorem isDirectory_of_makeDirectory (succeeds : fs.makeDirectory path = .ok made) :
    made.isDirectory path = true := by
  obtain ⟨location, children, resolved, -⟩ := exists_of_makeDirectory succeeds
  exact isDirectory_iff.mpr ⟨location, children, resolved⟩

/-- Where a directory is, none can be made. -/
theorem makeDirectory_of_isDirectory (there : fs.isDirectory path = true) :
    fs.makeDirectory path = .error .alreadyExists := by
  obtain ⟨top, children, resolved⟩ := isDirectory_iff.mp there
  obtain ⟨usable, leads⟩ := resolve_eq_ok_iff.mp resolved
  obtain ⟨location, entry, led⟩ := (leads.trim (trims_names path)).inspect rfl
  have followed : fs.followPath .inspect path (Path.names path) =
      .ok (.present location entry) := (followPath_eq_ok_iff (by decide)).mpr ⟨usable, led⟩
  rw [makeDirectory, followed]

/-! ### Directories with their ancestors -/

/-- What is new are directories that the path or its ancestors lead to. -/
theorem added_makeWithAncestors (path : String) (ancestors : List String)
    (free : fs.entryAt? location = none)
    (added : (fs.makeWithAncestors path ancestors).1.entryAt? location ≠ none) :
    ∃ own ∈ path :: ancestors, ∃ children,
      (fs.makeWithAncestors path ancestors).1.resolve own =
        .ok (.present location (.directory children)) := by
  revert added
  apply makeWithAncestors_induction (motive := fun made => made.entryAt? location ≠ none →
    ∃ own ∈ path :: ancestors, ∃ children,
      made.resolve own = .ok (.present location (.directory children)))
  · intro middle made own member known succeeds added
    by_cases old : middle.entryAt? location = none
    · -- Only where the directory was made something is new.
      obtain ⟨place, children, resolved, others⟩ := exists_of_makeDirectory succeeds
      have here : location = place := by
        refine Classical.byContradiction fun apart => added ?_
        rw [← bareAt?_eq_none_iff, others location apart, bareAt?_eq_none_iff]
        exact old
      exact ⟨own, member, children, here ▸ resolved⟩
    · obtain ⟨earlier, inside, children, resolved⟩ := known old
      obtain ⟨more, stays⟩ := (grows_makeDirectory succeeds).resolve_directory resolved
      exact ⟨earlier, inside, more, stays⟩
  · exact fun added => absurd free added

/-- What is new when a directory is made are that directory and directories above it. -/
theorem added_makeDirectories (free : fs.entryAt? location = none)
    (added : (fs.makeDirectories path).1.entryAt? location ≠ none) :
    ∃ own, (own = path ∨ Path.IsAbove own path) ∧ ∃ children,
      (fs.makeDirectories path).1.resolve own =
        .ok (.present location (.directory children)) := by
  obtain ⟨own, member, found⟩ := added_makeWithAncestors path (Path.ancestors path) free added
  refine ⟨own, ?_, found⟩
  exact (List.mem_cons.mp member).imp_right Path.isAbove_of_mem_ancestors

/-- The path of a directory that has been made leads to a directory. -/
theorem isDirectory_of_makeDirectories (succeeds : fs.makeDirectories path = (made, .ok ())) :
    made.isDirectory path = true := by
  -- The last step is to make the directory, or to find that it is there.
  have found {fs : FileSystem} {fault : Fault}
      (result : (fs, if fs.isDirectory path then Except.ok () else .error fault) =
        (made, .ok ())) : made.isDirectory path = true := by
    obtain ⟨rfl, ok⟩ := Prod.mk.inj result
    split at ok
    · next there => exact there
    · cases ok
  unfold makeDirectories makeWithAncestors at succeeds
  split at succeeds
  · next first =>
    obtain ⟨rfl, -⟩ := Prod.mk.inj succeeds
    exact isDirectory_of_makeDirectory first
  · split at succeeds
    · cases (Prod.mk.inj succeeds).2
    · split at succeeds
      · cases (Prod.mk.inj succeeds).2
      · split at succeeds
        · next last =>
          obtain ⟨rfl, -⟩ := Prod.mk.inj succeeds
          exact isDirectory_of_makeDirectory last
        · exact found succeeds
  · exact found succeeds

/-- To make a directory that is there changes nothing. -/
theorem makeDirectories_of_isDirectory (there : fs.isDirectory path = true) :
    fs.makeDirectories path = (fs, .ok ()) := by
  unfold makeDirectories makeWithAncestors
  rw [makeDirectory_of_isDirectory there, there]
  rfl

end LuaDecl.FileSystem
