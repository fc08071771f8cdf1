import LuaDecl.Proofs.FileSystem.Below
import LuaDecl.Proofs.FileSystem.Tidy

/-!
# The order of a walk

Where the entries of every directory have different names, a walk goes through its leaves in
strictly increasing order of their locations, compared name by name (`pairwise_leaves`). A list in
this order is determined by its members, so two walks that find the same leaves find them in the
same order.
-/

namespace LuaDecl.FileSystem

/-- The leaf stands before the other in the order of locations, compared name by name. -/
def Leaf.Precedes (first second : Leaf) : Prop :=
  first.location < second.location

/-- The entries of each directory in a tree have different names. -/
def AreDistinct (children : List (String × Entry)) : Prop :=
  ∀ location inner, (Entry.directory children).at? location = some (.directory inner) →
    (inner.map Prod.fst).Nodup

variable {skips : String → Bool} {opens : Location → Bool} {children : List (String × Entry)}

theorem AreDistinct.nodup (h : AreDistinct children) : (children.map Prod.fst).Nodup :=
  h [] children (Entry.at?_nil _)

theorem AreDistinct.inside {name : String} {below : List (String × Entry)}
    (h : AreDistinct ((name, .directory below) :: children)) : AreDistinct below := by
  intro location inner there
  refine h (name :: location) inner ?_
  rw [Entry.at?_directory_cons, Entry.lookup_cons_eq, if_pos rfl]
  exact there

theorem AreDistinct.others {name : String} {entry : Entry}
    (h : AreDistinct ((name, entry) :: children)) : AreDistinct children := by
  intro location inner there
  have distinct := h.nodup
  rw [List.map_cons, List.nodup_cons] at distinct
  cases location with
  | nil =>
    obtain rfl : children = inner := by simpa using there
    exact distinct.2
  | cons other location =>
    rw [Entry.at?_directory_cons] at there
    obtain ⟨child, listed, further⟩ := Option.bind_eq_some_iff.mp there
    have apart : other ≠ name := by
      rintro rfl
      have member := (lookup_eq_some_iff distinct.2).mp listed
      exact distinct.1 (List.mem_map.mpr ⟨_, member, rfl⟩)
    refine h (other :: location) inner ?_
    rw [Entry.at?_directory_cons, Entry.lookup_cons_eq, if_neg apart, listed]
    exact further

theorem IsTidy.areDistinct {fs : FileSystem} (tidy : fs.IsTidy) {top : Location}
    (there : fs.entryAt? top = some (.directory children)) : AreDistinct children := by
  intro location inner inside
  refine (tidy (top ++ location) inner ?_).distinct
  rw [entryAt?_append there]
  exact inside

/-! ### Groups -/

theorem map_fst_leafGroups (skips : String → Bool) (opens : Location → Bool)
    (children : List (String × Entry)) :
    (leafGroups skips opens children).map Prod.fst = children.map Prod.fst := by
  induction opens, children using leafGroups.induct skips with
  | case1 opens => simp [leafGroups]
  | case2 opens name below rest inside others => simp [leafGroups, others]
  | case3 opens name entry rest noDirectory others =>
    rw [leafGroups]
    · simp [others]
    · exact noDirectory

/-- The leaves of a group are at or below the child that gives it its name. -/
theorem head?_of_mem_leafGroups {group : String × List Leaf}
    (member : group ∈ leafGroups skips opens children) {leaf : Leaf} (inGroup : leaf ∈ group.2) :
    leaf.location.head? = some group.1 := by
  induction opens, children using leafGroups.induct skips with
  | case1 opens => simp [leafGroups] at member
  | case2 opens name below rest inside others =>
    rw [leafGroups] at member
    rcases List.mem_cons.mp member with rfl | later
    · dsimp only at inGroup
      split at inGroup
      · exact absurd inGroup List.not_mem_nil
      · split at inGroup
        · obtain ⟨inner, -, rfl⟩ := List.mem_map.mp inGroup
          rfl
        · rw [List.mem_singleton.mp inGroup]
          rfl
    · exact others later
  | case3 opens name entry rest noDirectory others =>
    rw [leafGroups] at member
    · rcases List.mem_cons.mp member with rfl | later
      · rw [List.mem_singleton.mp inGroup]
        rfl
      · exact others later
    · exact noDirectory

/-- Groups in order of different names give leaves in order. -/
theorem pairwise_inNameOrder {groups : List (String × List Leaf)}
    (distinct : (groups.map Prod.fst).Nodup)
    (headed : ∀ group ∈ groups, ∀ leaf ∈ group.2, leaf.location.head? = some group.1)
    (sorted : ∀ group ∈ groups, group.2.Pairwise Leaf.Precedes) :
    (inNameOrder groups).Pairwise Leaf.Precedes := by
  have ordered : (groups.mergeSort fun a b => a.1 ≤ b.1).Pairwise fun a b => a.1 ≤ b.1 := by
    refine (List.pairwise_mergeSort ?_ ?_ groups).imp of_decide_eq_true
    · intro a b c first second
      exact decide_eq_true (String.le_trans (of_decide_eq_true first) (of_decide_eq_true second))
    · intro a b
      simpa using String.le_total a.1 b.1
  have apart : (groups.mergeSort fun a b => a.1 ≤ b.1).Pairwise fun a b => a.1 ≠ b.1 :=
    List.pairwise_map.mp (((List.mergeSort_perm groups _).map Prod.fst).nodup_iff.mpr distinct)
  refine List.pairwise_flatMap.mpr ⟨?_, ?_⟩
  · intro group member
    exact sorted group (List.mem_mergeSort.mp member)
  · refine (ordered.and apart).imp_of_mem ?_
    rintro a b inA inB ⟨before, other⟩ first inFirst second inSecond
    have headA := headed a (List.mem_mergeSort.mp inA) first inFirst
    have headB := headed b (List.mem_mergeSort.mp inB) second inSecond
    obtain ⟨restA, equalA⟩ := List.head?_eq_some_iff.mp headA
    obtain ⟨restB, equalB⟩ := List.head?_eq_some_iff.mp headB
    rw [Leaf.Precedes, equalA, equalB, List.cons_lt_cons_iff]
    exact Or.inl (Std.lt_of_le_of_ne before other)

/-! ### Walks -/

theorem pairwise_of_mem_leafGroups (distinct : AreDistinct children)
    {group : String × List Leaf} (member : group ∈ leafGroups skips opens children) :
    group.2.Pairwise Leaf.Precedes := by
  -- The induction is the walk's own: what is below a directory is in order, and stays so with the
  -- directory's name in front.
  induction opens, children using leafGroups.induct skips generalizing group with
  | case1 opens => simp [leafGroups] at member
  | case2 opens name below rest inside others =>
    rw [leafGroups] at member
    rcases List.mem_cons.mp member with rfl | later
    · dsimp only
      split
      · exact .nil
      · split
        · have names := (map_fst_leafGroups skips (fun l => opens (name :: l)) below).symm ▸
            distinct.inside.nodup
          have sorted := pairwise_inNameOrder names (fun _ found _ => head?_of_mem_leafGroups found)
            fun _ found => inside distinct.inside found
          refine List.pairwise_map.mpr (sorted.imp ?_)
          intro first second before
          exact List.cons_lt_cons_iff.mpr (Or.inr ⟨rfl, before⟩)
        · exact List.pairwise_singleton _ _
    · exact others distinct.others later
  | case3 opens name entry rest noDirectory others =>
    rw [leafGroups] at member
    · rcases List.mem_cons.mp member with rfl | later
      · exact List.pairwise_singleton _ _
      · exact others distinct.others later
    · exact noDirectory

/-- A walk goes through its leaves in strictly increasing order of their locations. -/
theorem pairwise_leaves (distinct : AreDistinct children) :
    (leaves skips opens children).Pairwise Leaf.Precedes := by
  refine pairwise_inNameOrder ?_ (fun _ member _ => head?_of_mem_leafGroups member)
    fun _ member => pairwise_of_mem_leafGroups distinct member
  rw [map_fst_leafGroups]
  exact distinct.nodup

end LuaDecl.FileSystem
