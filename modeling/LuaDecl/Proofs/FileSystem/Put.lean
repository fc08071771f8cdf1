import LuaDecl.FileSystem.Resolve

/-!
# Putting an entry into a tree

What is put at a free name of a directory, or over a file there, stands at its location afterwards,
and nothing changes elsewhere. The directories above hold the new entry below them, so for them this
is said of the entry without what stands below it (`bareAt?_putAt`).
-/

namespace LuaDecl.FileSystem

namespace Entry

variable {new e : Entry} {name : String} {parent location : Location}
  {children : List (String × Entry)}

/-- The entry without what stands below it. -/
def bare : Entry → Entry
  | file content => file content
  | link target => link target
  | directory _ => directory []

@[simp]
theorem at?_nil (e : Entry) : e.at? [] = some e := by
  unfold at?
  rfl

@[simp]
theorem at?_directory_cons (name : String) (location : Location) :
    (directory children).at? (name :: location) =
      (children.lookup name).bind (at? · location) := by
  rw [at?]

theorem at?_append (e : Entry) (first second : Location) :
    e.at? (first ++ second) = (e.at? first).bind (at? · second) := by
  induction first generalizing e with
  | nil => simp
  | cons name rest ih =>
    cases e with
    | directory children =>
      rw [List.cons_append, at?_directory_cons, at?_directory_cons]
      cases children.lookup name with
      | none => rfl
      | some child => exact ih child
    | file _ | link _ => rfl

/-- Only directories have something below them. -/
theorem exists_directory_of_at?_cons {found : Entry}
    (h : e.at? (name :: location) = some found) :
    ∃ children child, e = .directory children ∧ children.lookup name = some child ∧
      child.at? location = some found := by
  cases e with
  | directory children =>
    rw [at?_directory_cons] at h
    obtain ⟨child, listed, below⟩ := Option.bind_eq_some_iff.mp h
    exact ⟨children, child, rfl, listed, below⟩
  | file _ | link _ => simp [at?] at h

theorem lookup_cons_eq (own : String) (entry : Entry) (rest : List (String × Entry))
    (other : String) :
    ((own, entry) :: rest).lookup other =
      if other = own then some entry else rest.lookup other := by
  by_cases same : other = own
  · simp [same]
  · simp [List.lookup_cons, beq_false_of_ne same, same]

/-- A name leads to the entry that was set last. -/
theorem lookup_setChild (name other : String) (new : Entry) (children : List (String × Entry)) :
    (setChild name new children).lookup other =
      if other = name then some new else children.lookup other := by
  induction children with
  | nil => exact lookup_cons_eq name new [] other
  | cons child rest ih =>
    obtain ⟨own, entry⟩ := child
    unfold setChild
    by_cases here : own = name
    · subst here
      rw [if_pos rfl, lookup_cons_eq, lookup_cons_eq]
      split <;> rfl
    · rw [if_neg here, lookup_cons_eq, ih, lookup_cons_eq]
      by_cases found : other = own
      · rw [if_pos found, if_neg (fun same => here (found.symm.trans same)), if_pos found]
      · rw [if_neg found, if_neg found]

/-- Nothing stands below the entry. -/
def IsChildless (e : Entry) : Prop :=
  ∀ below, below ≠ [] → e.at? below = none

theorem isChildless_file (content : ByteArray) : (file content).IsChildless := by
  intro below deeper
  cases below with
  | nil => exact absurd rfl deeper
  | cons name below => rfl

theorem isChildless_empty : (directory []).IsChildless := by
  intro below deeper
  cases below with
  | nil => exact absurd rfl deeper
  | cons name below => simp

theorem IsChildless.eq_nil (h : (directory children).IsChildless) : children = [] := by
  cases children with
  | nil => rfl
  | cons child rest =>
    have stands := h [child.1] (by simp)
    rw [at?_directory_cons, lookup_cons_eq, if_pos rfl] at stands
    simp at stands

/-! ### One put -/

theorem put_below {child : Entry} {first : String} (listed : children.lookup first = some child) :
    put new (.directory children) (first :: (parent ++ [name])) =
      .directory (setChild first (put new child (parent ++ [name])) children) := by
  rw [put, listed]
  simp

/-- What was put stands at its location. -/
theorem at?_put_append (above : e.at? parent = some (.directory children)) (below : Location) :
    (put new e (parent ++ [name])).at? (parent ++ name :: below) = new.at? below := by
  induction parent generalizing e with
  | nil =>
    obtain rfl : e = .directory children := by simpa using above
    simp [put, lookup_setChild]
  | cons first rest ih =>
    obtain ⟨others, child, rfl, listed, further⟩ := exists_directory_of_at?_cons above
    rw [List.cons_append, List.cons_append, put_below listed, at?_directory_cons, lookup_setChild,
      if_pos rfl]
    exact ih further

/-- Elsewhere stands what stood there, up to what is below it. -/
theorem bare_at?_put (above : e.at? parent = some (.directory children))
    (elsewhere : ¬ parent ++ [name] <+: location) :
    ((put new e (parent ++ [name])).at? location).map bare = (e.at? location).map bare := by
  induction parent generalizing e location with
  | nil =>
    obtain rfl : e = .directory children := by simpa using above
    cases location with
    | nil => simp [put, bare]
    | cons other location =>
      have apart : other ≠ name := by
        rintro rfl
        exact elsewhere ⟨location, rfl⟩
      simp [put, lookup_setChild, apart]
  | cons first rest ih =>
    obtain ⟨others, child, rfl, listed, further⟩ := exists_directory_of_at?_cons above
    rw [List.cons_append, put_below listed]
    cases location with
    | nil => simp [bare]
    | cons other location =>
      rw [at?_directory_cons, at?_directory_cons, lookup_setChild]
      by_cases same : other = first
      · subst same
        rw [if_pos rfl, listed]
        apply ih further
        rintro ⟨below, rfl⟩
        exact elsewhere ⟨below, rfl⟩
      · rw [if_neg same]

theorem exists_put_eq_directory (new : Entry) (children : List (String × Entry))
    (parent : Location) (name : String) :
    ∃ others, put new (.directory children) (parent ++ [name]) = .directory others := by
  cases parent with
  | nil => exact ⟨_, rfl⟩
  | cons first rest =>
    cases listed : children.lookup first with
    | none => exact ⟨children, by rw [List.cons_append, put, listed]; simp⟩
    | some child => exact ⟨_, put_below listed⟩

end Entry

variable {fs : FileSystem} {directory location : Location} {name : String} {new : Entry}

/-- What stands at a location, without what is below it. -/
def bareAt? (fs : FileSystem) (location : Location) : Option Entry :=
  (fs.entryAt? location).map Entry.bare

theorem bareAt?_eq_none_iff : fs.bareAt? location = none ↔ fs.entryAt? location = none := by
  simp [bareAt?]

theorem bareAt?_eq_file_iff {content : ByteArray} :
    fs.bareAt? location = some (.file content) ↔
      fs.entryAt? location = some (.file content) := by
  unfold bareAt?
  cases fs.entryAt? location with
  | none => simp
  | some entry => cases entry <;> simp [Entry.bare]

theorem bareAt?_eq_link_iff {target : String} :
    fs.bareAt? location = some (.link target) ↔
      fs.entryAt? location = some (.link target) := by
  unfold bareAt?
  cases fs.entryAt? location with
  | none => simp
  | some entry => cases entry <;> simp [Entry.bare]

theorem bareAt?_eq_directory_iff :
    fs.bareAt? location = some (.directory []) ↔
      ∃ children, fs.entryAt? location = some (.directory children) := by
  unfold bareAt?
  cases fs.entryAt? location with
  | none => simp
  | some entry => cases entry <;> simp [Entry.bare]

theorem holdsDirectory_iff : fs.holdsDirectory location = true ↔
    ∃ children, fs.entryAt? location = some (.directory children) := by
  unfold holdsDirectory
  cases fs.entryAt? location with
  | none => simp
  | some entry => cases entry <;> simp

theorem entryAt?_append {top : Location} {entry : Entry} (there : fs.entryAt? top = some entry)
    (location : Location) : fs.entryAt? (top ++ location) = entry.at? location := by
  rw [entryAt?, Entry.at?_append]
  exact congrArg (Option.bind · (Entry.at? · location)) there

/-- What stands at or below a name stands in a directory. -/
theorem exists_directory_of_entryAt?_cons {rest : Location} {entry : Entry}
    (there : fs.entryAt? (directory ++ name :: rest) = some entry) :
    ∃ children child, fs.entryAt? directory = some (.directory children) ∧
      children.lookup name = some child ∧ child.at? rest = some entry := by
  rw [entryAt?, Entry.at?_append] at there
  obtain ⟨above, found, below⟩ := Option.bind_eq_some_iff.mp there
  obtain ⟨children, child, rfl, listed, further⟩ := Entry.exists_directory_of_at?_cons below
  exact ⟨children, child, found, listed, further⟩

/-- A file stands in a directory. -/
theorem exists_parent_of_file {content : ByteArray}
    (there : fs.entryAt? location = some (.file content)) :
    ∃ directory name, fs.holdsDirectory directory = true ∧ location = directory ++ [name] := by
  rcases List.eq_nil_or_concat location with rfl | ⟨directory, name, rfl⟩
  · simp [entryAt?] at there
  · rw [List.concat_eq_append] at there ⊢
    obtain ⟨children, child, above, -, -⟩ := exists_directory_of_entryAt?_cons there
    exact ⟨directory, name, holdsDirectory_iff.mpr ⟨children, above⟩, rfl⟩

theorem workingDirectory_putAt (fs : FileSystem) (location : Location) (new : Entry) :
    (fs.putAt location new).workingDirectory = fs.workingDirectory := by
  unfold putAt
  split <;> rfl

theorem limit_putAt (fs : FileSystem) (location : Location) (new : Entry) :
    (fs.putAt location new).limit = fs.limit := by
  unfold putAt
  split <;> rfl

theorem entryAt?_putAt (fs : FileSystem) (directory location : Location) (name : String)
    (new : Entry) :
    (fs.putAt (directory ++ [name]) new).entryAt? location =
      (Entry.put new (.directory fs.root) (directory ++ [name])).at? location := by
  obtain ⟨others, whole⟩ :=
    Entry.exists_put_eq_directory new fs.root directory name
  rw [putAt, whole]
  rfl

theorem entryAt?_putAt_self (above : fs.holdsDirectory directory = true) :
    (fs.putAt (directory ++ [name]) new).entryAt? (directory ++ [name]) = some new := by
  obtain ⟨children, there⟩ := holdsDirectory_iff.mp above
  have put : (Entry.put new (.directory fs.root) (directory ++ [name])).at? (directory ++ [name]) =
      new.at? [] := Entry.at?_put_append there []
  rw [entryAt?_putAt, put, Entry.at?_nil]

/-- A put of something without children, at a free name or over a file, changes nothing at other
locations, up to what is below them. -/
theorem bareAt?_putAt (above : fs.holdsDirectory directory = true)
    (childless : new.IsChildless)
    (free : ∀ children, fs.entryAt? (directory ++ [name]) ≠ some (.directory children))
    (other : location ≠ directory ++ [name]) :
    (fs.putAt (directory ++ [name]) new).bareAt? location = fs.bareAt? location := by
  obtain ⟨children, there⟩ := holdsDirectory_iff.mp above
  rw [bareAt?, entryAt?_putAt]
  by_cases below : directory ++ [name] <+: location
  · obtain ⟨inner, rfl⟩ := below
    have deeper : inner ≠ [] := by
      rintro rfl
      exact other (List.append_nil _)
    obtain ⟨first, rest, rfl⟩ := List.exists_cons_of_ne_nil deeper
    -- Before, nothing stood below what was no directory.
    have before : fs.entryAt? (directory ++ [name] ++ first :: rest) = none := by
      rw [entryAt?, Entry.at?_append]
      change (fs.entryAt? (directory ++ [name])).bind _ = none
      cases found : fs.entryAt? (directory ++ [name]) with
      | none => rfl
      | some entry =>
        cases entry with
        | directory others => exact absurd found (free others)
        | file _ | link _ => rfl
    rw [bareAt?, before, List.append_assoc, List.singleton_append, Entry.at?_put_append there,
      childless _ deeper]
  · exact Entry.bare_at?_put there below

end LuaDecl.FileSystem
