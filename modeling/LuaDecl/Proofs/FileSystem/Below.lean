import LuaDecl.FileSystem.Walk

/-!
# What stands below a directory

The declarative reading of a walk. An entry stands below a directory if directories lead down to it,
and a walk reaches it if it leaves out none of them and can open them all. The files and links among
the leaves of a walk are those that stand below the directory and are reached (`mem_leaves_iff`).
-/

namespace LuaDecl.FileSystem

variable {skips : String → Bool} {opens : Location → Bool} {children : List (String × Entry)}

/-- The entry stands below a directory with the given children: directories, and no links, lead down
to its location. -/
inductive Below : List (String × Entry) → Location → Entry → Prop where
  | child {children name entry} : (name, entry) ∈ children → Below children [name] entry
  | deeper {children name below location entry} : (name, .directory below) ∈ children →
      Below below location entry → Below children (name :: location) entry

/-- A walk comes as far as the location: it leaves out no directory above it and can open each. -/
structure Reached (skips : String → Bool) (opens : Location → Bool) (location : Location) :
    Prop where
  unskipped : ∀ name ∈ location.dropLast, skips name = false
  opened : ∀ above rest, location = above ++ rest → above ≠ [] → rest ≠ [] → opens above = true

theorem not_below_nil {location : Location} {entry : Entry} : ¬ Below [] location entry := by
  rintro (member | ⟨member, -⟩) <;> exact absurd member List.not_mem_nil

theorem Below.ne_nil {location : Location} {entry : Entry} (h : Below children location entry) :
    location ≠ [] := by
  cases h <;> simp

/-- What stands below a directory is its first child, stands below that, or below the others. -/
theorem below_cons_iff {name : String} {own entry : Entry} {location : Location} :
    Below ((name, own) :: children) location entry ↔
      (location = [name] ∧ entry = own) ∨
        (∃ below inner, own = .directory below ∧ location = name :: inner ∧
          Below below inner entry) ∨
        Below children location entry := by
  constructor
  · intro h
    cases h with
    | child member =>
      rcases List.mem_cons.mp member with equal | member
      · obtain ⟨rfl, rfl⟩ := Prod.mk.inj equal
        exact Or.inl ⟨rfl, rfl⟩
      · exact Or.inr (Or.inr (.child member))
    | @deeper _ _ below inner _ member further =>
      rcases List.mem_cons.mp member with equal | member
      · obtain ⟨rfl, rfl⟩ := Prod.mk.inj equal
        exact Or.inr (Or.inl ⟨below, inner, rfl, rfl, further⟩)
      · exact Or.inr (Or.inr (.deeper member further))
  · rintro (⟨rfl, rfl⟩ | ⟨below, inner, rfl, rfl, further⟩ | other)
    · exact .child List.mem_cons_self
    · exact .deeper List.mem_cons_self further
    · cases other with
      | child member => exact .child (List.mem_cons_of_mem _ member)
      | deeper member further => exact .deeper (List.mem_cons_of_mem _ member) further

theorem reached_singleton (name : String) : Reached skips opens [name] where
  unskipped := by simp
  opened := by
    intro above rest whole nonempty more
    cases above with
    | nil => exact absurd rfl nonempty
    | cons first above =>
      obtain ⟨-, equal⟩ := List.cons.inj whole
      exact absurd (List.append_eq_nil_iff.mp equal.symm).2 more

/-- A location in a directory is reached if the directory is entered and the location reached from
there. -/
theorem reached_cons_iff {name : String} {location : Location} (nonempty : location ≠ []) :
    Reached skips opens (name :: location) ↔
      skips name = false ∧ opens [name] = true ∧
        Reached skips (fun inner => opens (name :: inner)) location := by
  constructor
  · intro h
    refine ⟨?_, h.opened [name] location rfl (by simp) nonempty, ?_, ?_⟩
    · exact h.unskipped name (by simp [List.dropLast_cons_of_ne_nil nonempty])
    · intro other member
      exact h.unskipped other (by simp [List.dropLast_cons_of_ne_nil nonempty, member])
    · rintro above rest rfl - more
      exact h.opened (name :: above) rest rfl (by simp) more
  · rintro ⟨entered, opened, further⟩
    refine ⟨?_, ?_⟩
    · intro other member
      rw [List.dropLast_cons_of_ne_nil nonempty] at member
      rcases List.mem_cons.mp member with rfl | member
      · exact entered
      · exact further.unskipped other member
    · intro above rest whole above_ne more
      cases above with
      | nil => exact absurd rfl above_ne
      | cons first above =>
        obtain ⟨rfl, equal⟩ := List.cons.inj whole
        cases above with
        | nil => exact opened
        | cons second above => exact further.opened _ rest equal (by simp) more

theorem mem_inNameOrder {groups : List (String × List Leaf)} {leaf : Leaf} :
    leaf ∈ inNameOrder groups ↔ ∃ group ∈ groups, leaf ∈ group.2 := by
  simp only [inNameOrder, List.mem_flatMap, List.mem_mergeSort]

/-- What is found in one directory, if everything below it is known. -/
theorem mem_leavesInside_iff {name : String} {below : List (String × Entry)} {leaf : Leaf}
    (plain : ∀ below, leaf.entry ≠ .directory below)
    (inside : ∀ leaf : Leaf, (∀ below, leaf.entry ≠ .directory below) →
      ((∃ group ∈ leafGroups skips (fun l => opens (name :: l)) below, leaf ∈ group.2) ↔
        Below below leaf.location leaf.entry ∧
          Reached skips (fun l => opens (name :: l)) leaf.location)) :
    (leaf ∈ if skips name then []
      else if opens [name] then
        (inNameOrder (leafGroups skips (fun l => opens (name :: l)) below)).map fun l =>
          ⟨name :: l.location, l.entry⟩
      else [⟨[name], .directory below⟩]) ↔
      ∃ inner, leaf.location = name :: inner ∧ Below below inner leaf.entry ∧
        Reached skips opens leaf.location := by
  split
  · next skipped =>
    refine iff_of_false List.not_mem_nil ?_
    rintro ⟨inner, located, further, reached⟩
    rw [located, reached_cons_iff further.ne_nil, skipped] at reached
    exact Bool.noConfusion reached.1
  · next entered =>
    split
    · next opened =>
      simp only [List.mem_map, mem_inNameOrder]
      constructor
      · rintro ⟨found, member, rfl⟩
        obtain ⟨further, reached⟩ := (inside found plain).mp member
        refine ⟨found.location, rfl, further, (reached_cons_iff further.ne_nil).mpr ?_⟩
        exact ⟨Bool.eq_false_iff.mpr entered, opened, reached⟩
      · rintro ⟨inner, located, further, reached⟩
        rw [located, reached_cons_iff further.ne_nil] at reached
        have member := (inside ⟨inner, leaf.entry⟩ plain).mpr ⟨further, reached.2.2⟩
        exact ⟨⟨inner, leaf.entry⟩, member, by rw [← located]⟩
    · next closed =>
      constructor
      · intro member
        obtain rfl := List.mem_singleton.mp member
        exact absurd rfl (plain below)
      · rintro ⟨inner, located, further, reached⟩
        rw [located, reached_cons_iff further.ne_nil] at reached
        exact absurd reached.2.1 closed

/-- A file or link is in a group of leaves if it stands below the directory and is reached. -/
theorem exists_mem_leafGroups_iff {leaf : Leaf}
    (plain : ∀ below, leaf.entry ≠ .directory below) :
    (∃ group ∈ leafGroups skips opens children, leaf ∈ group.2) ↔
      Below children leaf.location leaf.entry ∧ Reached skips opens leaf.location := by
  -- The induction is the walk's own: one directory down, what can be opened is seen from there.
  induction opens, children using leafGroups.induct skips generalizing leaf with
  | case1 opens => simp [leafGroups, not_below_nil]
  | case2 opens name below rest inside others =>
    rw [leafGroups]
    simp only [List.mem_cons, exists_eq_or_imp, mem_leavesInside_iff plain fun _ => inside,
      others plain, below_cons_iff, Entry.directory.injEq]
    constructor
    · rintro (⟨inner, located, further, reached⟩ | ⟨other, reached⟩)
      · exact ⟨Or.inr (Or.inl ⟨below, inner, rfl, located, further⟩), reached⟩
      · exact ⟨Or.inr (Or.inr other), reached⟩
    · rintro ⟨⟨-, equal⟩ | ⟨_, inner, rfl, located, further⟩ | other, reached⟩
      · exact absurd equal (plain below)
      · exact Or.inl ⟨inner, located, further, reached⟩
      · exact Or.inr ⟨other, reached⟩
  | case3 opens name entry rest noDirectory others =>
    have apart : ∀ below, entry ≠ .directory below := fun below equal => noDirectory below equal
    rw [leafGroups]
    · simp only [List.mem_cons, exists_eq_or_imp, others plain, below_cons_iff, List.not_mem_nil,
        or_false, apart, false_and, exists_false, false_or]
      constructor
      · rintro (rfl | ⟨other, reached⟩)
        · exact ⟨Or.inl ⟨rfl, rfl⟩, reached_singleton name⟩
        · exact ⟨Or.inr other, reached⟩
      · rintro ⟨⟨located, equal⟩ | other, reached⟩
        · left
          cases leaf
          simp_all
        · exact Or.inr ⟨other, reached⟩
    · exact noDirectory

/-- The files and links among the leaves of a walk. -/
theorem mem_leaves_iff {leaf : Leaf} (plain : ∀ below, leaf.entry ≠ .directory below) :
    leaf ∈ leaves skips opens children ↔
      Below children leaf.location leaf.entry ∧ Reached skips opens leaf.location := by
  rw [leaves, mem_inNameOrder, exists_mem_leafGroups_iff plain]

end LuaDecl.FileSystem
