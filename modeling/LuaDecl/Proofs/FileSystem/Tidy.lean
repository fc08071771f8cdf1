import LuaDecl.Proofs.FileSystem.Below
import LuaDecl.Proofs.FileSystem.Growth
import LuaDecl.Proofs.FileSystem.Names

/-!
# Tidy trees

In the tree of a file system the entries of a directory have different names, and a name is no dot
or pair of dots, holds no slash and is not too long. What is made or written keeps a tree tidy. In a
tidy tree an entry stands below a directory exactly if it is found at a longer location
(`below_iff_entryAt?`).
-/

namespace LuaDecl.FileSystem

/-- The names are those of the entries of one directory. -/
structure AreNames (names : List String) : Prop where
  distinct : names.Nodup
  valid : ∀ name ∈ names, IsName name

instance : DecidablePred AreNames := fun names =>
  decidable_of_iff (names.Nodup ∧ ∀ name ∈ names, IsName name)
    ⟨fun ⟨distinct, valid⟩ => ⟨distinct, valid⟩, fun h => ⟨h.distinct, h.valid⟩⟩

/-- Every directory of the tree has such names in it. -/
def IsTidy (fs : FileSystem) : Prop :=
  ∀ location children, fs.entryAt? location = some (.directory children) →
    AreNames (children.map Prod.fst)

/-! ### Children -/

/-- Where names are different, a name leads to each child. -/
theorem lookup_eq_some_iff {children : List (String × Entry)}
    (distinct : (children.map Prod.fst).Nodup) {name : String} {entry : Entry} :
    children.lookup name = some entry ↔ (name, entry) ∈ children := by
  induction children with
  | nil => simp
  | cons child rest ih =>
    obtain ⟨own, first⟩ := child
    rw [List.map_cons, List.nodup_cons] at distinct
    rw [Entry.lookup_cons_eq, List.mem_cons, Prod.mk.injEq]
    by_cases same : name = own
    · subst same
      have fresh : (name, entry) ∉ rest := fun member =>
        distinct.1 (List.mem_map.mpr ⟨_, member, rfl⟩)
      simp [fresh, eq_comm]
    · simp [same, ih distinct.2]

/-- A tree is tidy if the names in its root are, and the trees below. -/
theorem isTidy_of_root {root : List (String × Entry)} {workingDirectory : Location}
    {limit : Location → Option Limit} (names : AreNames (root.map Prod.fst))
    (below : ∀ name children, (name, .directory children) ∈ root →
      IsTidy ⟨children, workingDirectory, limit⟩) :
    IsTidy ⟨root, workingDirectory, limit⟩ := by
  intro location children there
  rw [entryAt?] at there
  cases location with
  | nil =>
    obtain rfl := Entry.directory.inj (Option.some.inj (Entry.at?_nil _ ▸ there))
    exact names
  | cons name rest =>
    rw [Entry.at?_directory_cons] at there
    obtain ⟨child, listed, further⟩ := Option.bind_eq_some_iff.mp there
    have member := (lookup_eq_some_iff names.distinct).mp listed
    cases child with
    | directory inner => exact below name inner member rest children further
    | file content => cases rest <;> cases further
    | link target => cases rest <;> cases further

theorem map_fst_setChild (name : String) (new : Entry) (children : List (String × Entry)) :
    (Entry.setChild name new children).map Prod.fst =
      if name ∈ children.map Prod.fst then children.map Prod.fst
      else children.map Prod.fst ++ [name] := by
  induction children with
  | nil => simp [Entry.setChild]
  | cons child rest ih =>
    obtain ⟨own, entry⟩ := child
    unfold Entry.setChild
    by_cases same : own = name
    · simp [same]
    · rw [if_neg same, List.map_cons, ih]
      by_cases member : name ∈ rest.map Prod.fst
      · simp [member]
      · simp [member, Ne.symm same]

theorem AreNames.setChild {children : List (String × Entry)} {name : String}
    (h : AreNames (children.map Prod.fst)) (valid : IsName name) (new : Entry) :
    AreNames ((Entry.setChild name new children).map Prod.fst) := by
  rw [map_fst_setChild]
  split
  · exact h
  · next fresh =>
    refine ⟨List.nodup_append.mpr ⟨h.distinct, by simp, ?_⟩, ?_⟩
    · intro a member b last
      rw [List.mem_singleton.mp last]
      rintro rfl
      exact fresh member
    · intro other member
      rcases List.mem_append.mp member with old | last
      · exact h.valid other old
      · exact List.mem_singleton.mp last ▸ valid

/-! ### What a put leaves -/

/-- A directory that stands somewhere after a put stood there before, with the same names in it
unless it is the one above; or it came with what was put. -/
theorem Entry.exists_directory_of_at?_put {new e : Entry} {name : String}
    {parent location : Location} {children after : List (String × Entry)}
    (above : e.at? parent = some (.directory children))
    (there : (put new e (parent ++ [name])).at? location = some (.directory after)) :
    (∃ below, location = parent ++ name :: below ∧ new.at? below = some (.directory after)) ∨
      ∃ before, e.at? location = some (.directory before) ∧
        (after.map Prod.fst = before.map Prod.fst ∨ after = setChild name new before) := by
  induction parent generalizing e location with
  | nil =>
    obtain rfl : e = .directory children := by simpa using above
    cases location with
    | nil =>
      obtain rfl : setChild name new children = after := by simpa [put] using there
      exact Or.inr ⟨children, by simp, Or.inr rfl⟩
    | cons other location =>
      simp only [List.nil_append, put, at?_directory_cons, lookup_setChild] at there
      by_cases same : other = name
      · subst same
        rw [if_pos rfl] at there
        exact Or.inl ⟨location, rfl, there⟩
      · rw [if_neg same] at there
        exact Or.inr ⟨after, by rw [at?_directory_cons]; exact there, Or.inl rfl⟩
  | cons first rest ih =>
    obtain ⟨others, child, rfl, listed, further⟩ := exists_directory_of_at?_cons above
    rw [List.cons_append, put_below listed] at there
    cases location with
    | nil =>
      obtain rfl : setChild first (put new child (rest ++ [name])) others = after := by
        simpa using there
      refine Or.inr ⟨others, by simp, Or.inl ?_⟩
      have member : first ∈ others.map Prod.fst := by
        refine Classical.byContradiction fun fresh => ?_
        rw [List.lookup_eq_none_iff.mpr] at listed
        · cases listed
        · intro child' inside
          have apart : first ≠ child'.1 := by
            rintro rfl
            exact fresh (List.mem_map_of_mem inside)
          simpa using apart
      rw [map_fst_setChild, if_pos member]
    | cons other location =>
      rw [at?_directory_cons, lookup_setChild] at there
      by_cases same : other = first
      · subst same
        rw [if_pos rfl] at there
        rcases ih further there with ⟨below, rfl, inside⟩ | ⟨before, stood, names⟩
        · exact Or.inl ⟨below, rfl, inside⟩
        · refine Or.inr ⟨before, ?_, names⟩
          rw [at?_directory_cons, listed]
          exact stood
      · rw [if_neg same] at there
        exact Or.inr ⟨after, by rw [at?_directory_cons]; exact there, Or.inl rfl⟩

variable {fs : FileSystem} {directory location : Location} {name : String} {new : Entry}
  {intent : Intent} {links : Nat} {steps : List String}

/-- A put of something without children keeps a tree tidy. -/
theorem IsTidy.putAt (tidy : fs.IsTidy) (above : fs.holdsDirectory directory = true)
    (valid : IsName name) (childless : new.IsChildless) :
    (fs.putAt (directory ++ [name]) new).IsTidy := by
  intro location after there
  obtain ⟨children, stands⟩ := holdsDirectory_iff.mp above
  rw [entryAt?_putAt] at there
  rcases Entry.exists_directory_of_at?_put stands there with
    ⟨below, -, inside⟩ | ⟨before, stood, same | rfl⟩
  · have none : after = [] := by
      by_cases deeper : below = []
      · subst deeper
        rw [Entry.at?_nil] at inside
        obtain rfl := Option.some.inj inside
        exact childless.eq_nil
      · rw [childless below deeper] at inside
        cases inside
    subst none
    exact ⟨List.nodup_nil, by simp⟩
  · exact same ▸ tidy location before stood
  · exact (tidy location before stood).setChild valid new

/-! ### Names of paths -/

/-- A free name is a name of the path, or of the target of a link on the way. -/
theorem Leads.noSlash_of_vacant {place : Place}
    (leads : Leads fs intent links directory steps place)
    (spelled : ∀ step ∈ steps, '/' ∉ step.toList) {top : Location} {name : String}
    (vacant : place = .vacant top name) : '/' ∉ name.toList := by
  induction leads with
  | arrive _ => cases vacant
  | stay _ _ ih | up _ ih | enter _ _ _ ih =>
    exact ih (fun step member => spelled step (List.mem_cons_of_mem _ member)) vacant
  | free _ _ _ =>
    obtain ⟨-, rfl⟩ := Place.vacant.inj vacant
    exact spelled _ List.mem_cons_self
  | file _ _ => cases vacant
  | link _ _ _ => cases vacant
  | through _ _ _ _ _ ih =>
    refine ih ?_ vacant
    intro step member
    rcases List.mem_append.mp member with target | rest
    · exact Path.noSlash_of_mem_steps target
    · exact spelled step (List.mem_cons_of_mem _ rest)

/-! ### Operations -/

theorem IsTidy.makeDirectory (tidy : fs.IsTidy) {path : String} {made : FileSystem}
    (succeeds : fs.makeDirectory path = .ok made) : made.IsTidy := by
  unfold FileSystem.makeDirectory at succeeds
  split at succeeds
  · cases succeeds
  · next directory name followed =>
    obtain rfl := Except.ok.inj succeeds
    obtain ⟨-, leads⟩ := (followPath_eq_ok_iff (by decide)).mp followed
    obtain ⟨above, -, proper⟩ := leads.isIn
    have noSlash := leads.noSlash_of_vacant (fun step => Path.noSlash_of_mem_names) rfl
    exact tidy.putAt above ⟨proper, noSlash⟩ Entry.isChildless_empty
  · cases succeeds

theorem IsTidy.makeDirectories (tidy : fs.IsTidy) (path : String) :
    (fs.makeDirectories path).1.IsTidy :=
  makeWithAncestors_induction path _ (fun _ _ _ _ tidy succeeds => tidy.makeDirectory succeeds) tidy

/-- The names on the way to an entry are names. -/
theorem IsTidy.isName_of_entryAt? (tidy : fs.IsTidy) {entry : Entry} {rest : Location}
    (there : fs.entryAt? (directory ++ name :: rest) = some entry) : IsName name := by
  obtain ⟨children, child, above, listed, -⟩ := exists_directory_of_entryAt?_cons there
  have names := tidy directory children above
  rw [lookup_eq_some_iff names.distinct] at listed
  exact names.valid name (List.mem_map.mpr ⟨_, listed, rfl⟩)

theorem IsTidy.isName_of_mem (tidy : fs.IsTidy) {entry : Entry}
    (there : fs.entryAt? (directory ++ location) = some entry) :
    ∀ name ∈ location, IsName name := by
  intro name member
  obtain ⟨front, rest, rfl⟩ := List.append_of_mem member
  rw [← List.append_assoc] at there
  exact tidy.isName_of_entryAt? there

theorem IsTidy.write (tidy : fs.IsTidy) (path : String) (content : ByteArray) :
    (fs.write path content).1.IsTidy := by
  unfold FileSystem.write
  split
  · next location old followed =>
    obtain ⟨part, result, stored, -⟩ := exists_stored fs location content
    have there := ((followPath_eq_ok_iff (by decide)).mp followed).2.isIn
    obtain ⟨directory, name, above, rfl⟩ := exists_parent_of_file there
    rw [stored]
    exact tidy.putAt above (tidy.isName_of_entryAt? there) (Entry.isChildless_file part)
  · exact tidy
  · exact tidy
  · next directory name followed =>
    obtain ⟨part, result, stored, -⟩ := exists_stored fs (directory ++ [name]) content
    obtain ⟨-, leads⟩ := (followPath_eq_ok_iff (by decide)).mp followed
    obtain ⟨above, -, proper⟩ := leads.isIn
    have noSlash := leads.noSlash_of_vacant (fun step => Path.noSlash_of_mem_steps) rfl
    rw [stored]
    exact tidy.putAt above ⟨proper, noSlash⟩ (Entry.isChildless_file part)
  · exact tidy

/-! ### Below a directory -/

/-- What stands below a directory is what is found at longer locations. -/
theorem IsTidy.below_iff_entryAt? (tidy : fs.IsTidy) {top : Location}
    {children : List (String × Entry)} (there : fs.entryAt? top = some (.directory children))
    {location : Location} {entry : Entry} :
    Below children location entry ↔
      location ≠ [] ∧ fs.entryAt? (top ++ location) = some entry := by
  induction location generalizing top children with
  | nil =>
    constructor
    · intro below
      exact absurd rfl below.ne_nil
    · rintro ⟨nonempty, -⟩
      exact absurd rfl nonempty
  | cons name rest ih =>
    have distinct := (tidy top children there).distinct
    have found : fs.entryAt? (top ++ name :: rest) =
        (children.lookup name).bind (Entry.at? · rest) := by
      rw [entryAt?_append there, Entry.at?_directory_cons]
    -- A child that is a directory stands there as such, for the names below it.
    have inside {inner : List (String × Entry)}
        (listed : children.lookup name = some (.directory inner)) :
        fs.entryAt? (top ++ [name]) = some (.directory inner) := by
      rw [entryAt?_append there, Entry.at?_directory_cons, listed, Option.bind_some, Entry.at?_nil]
    rw [found]
    constructor
    · intro below
      refine ⟨by simp, ?_⟩
      cases below with
      | child member =>
        rw [(lookup_eq_some_iff distinct).mpr member, Option.bind_some, Entry.at?_nil]
      | @deeper _ _ inner _ _ member further =>
        have listed := (lookup_eq_some_iff distinct).mpr member
        obtain ⟨-, stands⟩ := (ih (inside listed)).mp further
        rw [List.append_assoc, List.singleton_append, found, listed] at stands
        rw [listed]
        exact stands
    · rintro ⟨-, stands⟩
      obtain ⟨child, listed, deeper⟩ := Option.bind_eq_some_iff.mp stands
      have member := (lookup_eq_some_iff distinct).mp listed
      cases rest with
      | nil =>
        rw [Entry.at?_nil] at deeper
        exact .child (Option.some.inj deeper ▸ member)
      | cons second rest =>
        obtain ⟨inner, grandchild, rfl, -, -⟩ := Entry.exists_directory_of_at?_cons deeper
        refine .deeper member ((ih (inside listed)).mpr ⟨by simp, ?_⟩)
        rw [List.append_assoc, List.singleton_append, found, listed]
        exact deeper

end LuaDecl.FileSystem
