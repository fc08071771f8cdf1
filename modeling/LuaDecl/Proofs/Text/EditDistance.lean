import LuaDecl.Proofs.Text.Edits
import LuaDecl.Text.EditDistance

/-!
# The edit distance is the least number of edits

Each row holds the least numbers of edits that lead from a text to the starts of the target: one
more character is matched at the end of both, inserted or deleted. One row that is overwritten from
left to right ends as the last of these rows, and no position outside it is used
(`distance_isLeast`).
-/

namespace LuaDecl.Text.EditDistance

variable {c : Char} {i diagonal left : Nat} {source front target : List Char} {done old : List Nat}

/-! ### Rows of least numbers -/

/-- The least numbers of edits from a text to the texts that begin with `front` and go on with one
character of the target and more. -/
def leastFrom (source front : List Char) : (target : List Char) → List Nat
  | [] => []
  | t :: target =>
    leastEdits source (front ++ [t]) :: leastFrom source (front ++ [t]) target

/-- The least numbers of edits from a text to the starts of the target. -/
def leastRow (source target : List Char) : List Nat :=
  leastEdits source [] :: leastFrom source [] target

theorem leastFrom_nil (front target : List Char) :
    leastFrom [] front target = List.range' (front.length + 1) target.length := by
  induction target generalizing front with
  | nil => rfl
  | cons t target ih =>
    rw [leastFrom, ih, leastEdits_nil_left, List.length_cons, List.range'_succ]
    simp

theorem firstRow_eq_leastRow (target : List Char) : firstRow target = leastRow [] target := by
  rw [firstRow, leastRow, leastFrom_nil, leastEdits_nil_left, List.range_eq_range',
    List.range'_succ]
  simp

/-- Behind an entry of the next row and the one above it, the next row goes on with least numbers.
-/
theorem nextEntries_leastFrom (source front : List Char) (c : Char) (target : List Char) :
    nextEntries c (leastEdits (source ++ [c]) front) (leastEdits source front) target
      (leastFrom source front target) = leastFrom (source ++ [c]) front target := by
  induction target generalizing front with
  | nil => rfl
  | cons t target ih =>
    have entry := leastEdits_concat source front c t
    rw [leastFrom, leastFrom, nextEntries, ← ih, entry]
    rfl

theorem nextRow_leastRow (source : List Char) (c : Char) (target : List Char) :
    nextRow target (leastRow source target) c = leastRow (source ++ [c]) target := by
  have entries := nextEntries_leastFrom source [] c target
  simp only [leastEdits_nil_right, List.length_append, List.length_singleton] at entries
  rw [leastRow, nextRow, leastRow]
  simp only [leastEdits_nil_right, List.length_append, List.length_singleton, entries]

/-- Every row holds the least numbers of edits to the starts of the target. -/
theorem row_eq_leastRow (source target : List Char) :
    row source target = leastRow source target := by
  have further (front : List Char) :
      source.foldl (nextRow target) (leastRow front target) =
        leastRow (front ++ source) target := by
    induction source generalizing front with
    | nil => simp
    | cons c source ih => rw [List.foldl_cons, nextRow_leastRow, ih, List.append_assoc]; rfl
  rw [row, firstRow_eq_leastRow, further, List.nil_append]

theorem getLastD_leastFrom (source front target : List Char) (before : Nat)
    (own : before = leastEdits source front) :
    (leastFrom source front target).getLastD before = leastEdits source (front ++ target) := by
  induction target generalizing front before with
  | nil => simpa [leastFrom] using own
  | cons t target ih =>
    rw [leastFrom, List.getLastD_cons, ih (front ++ [t]) _ rfl, List.append_assoc]
    rfl

theorem distance_eq_leastEdits (source target : List Char) :
    distance source target = leastEdits source target := by
  rw [distance, row_eq_leastRow, leastRow, List.getLastD_cons, getLastD_leastFrom _ _ _ _ rfl,
    List.nil_append]

/-! ### One row in place -/

/-- The row while it is overwritten: what is done, the entry found last, and what is old. -/
theorem overwrite?_eq (size : old.length = target.length) :
    overwrite? c done.length diagonal (done ++ left :: old) target =
      some (done ++ left :: nextEntries c left diagonal target old) := by
  induction target generalizing done left diagonal old with
  | nil =>
    obtain rfl := List.eq_nil_of_length_eq_zero size
    rfl
  | cons t target ih =>
    obtain ⟨above, old, rfl⟩ := List.exists_cons_of_length_eq_add_one size
    have right : (done ++ left :: above :: old)[done.length + 1]? = some above := by simp
    have here : (done ++ left :: above :: old)[done.length]? = some left := by simp
    have written (entry : Nat) : (done ++ left :: above :: old).set (done.length + 1) entry =
        (done ++ [left]) ++ entry :: old := by simp
    have position : done.length + 1 = (done ++ [left]).length := by simp
    rw [overwrite?, right, here]
    simp only [Option.bind_eq_bind, Option.bind_some, written]
    rw [position, ih (Nat.succ.inj size), nextEntries, List.append_assoc]
    rfl

theorem overwriteRow?_eq (size : old.length = target.length) :
    overwriteRow? target i (i :: old) source = some (source.foldl (nextRow target) (i :: old)) := by
  induction source generalizing i old with
  | nil => rfl
  | cons c source ih =>
    have entries : overwrite? c ([] : List Nat).length i ((i + 1) :: old) target =
        some ((i + 1) :: nextEntries c (i + 1) i target old) := overwrite?_eq size
    have sizeNext : (nextEntries c (i + 1) i target old).length = target.length := by
      rw [length_nextEntries, size, Nat.min_self]
    rw [overwriteRow?, List.foldl_cons, nextRow, ← ih sizeNext]
    simpa using congrArg (Option.bind · fun row => overwriteRow? target (i + 1) row source) entries

/-- Overwriting one row uses no position outside it and finds the distance. -/
theorem distanceInPlace?_eq (source target : List Char) :
    distanceInPlace? source target = some (distance source target) := by
  have first : List.range (target.length + 1) = 0 :: List.range' 1 target.length := by
    rw [List.range_eq_range', List.range'_succ]
  have rows : overwriteRow? target 0 (List.range (target.length + 1)) source =
      some (row source target) := by
    rw [first, overwriteRow?_eq (by simp), ← first]
    rfl
  have last := length_row source target
  rw [distanceInPlace?, rows, distance, List.getLastD_eq_getLast?, List.getLast?_eq_getElem?, last,
    Nat.add_sub_cancel]
  obtain ⟨found, known⟩ : ∃ found, (row source target)[target.length]? = some found :=
    ⟨_, List.getElem?_eq_getElem (by omega)⟩
  rw [Option.bind_eq_bind, Option.bind_some, known, Option.getD_some]

/-! ### The distance of texts -/

/-- The edit distance of two texts is the least number of characters to insert, delete or replace
that turns one into the other, so it is a distance. One row that is overwritten is enough to find
it, and no position outside the row is used. -/
theorem distance_isLeast (a b : String) :
    IsLeast {n | Edits n a.toList b.toList} (distance a.toList b.toList) ∧
      distance a.toList b.toList = leastEdits a.toList b.toList ∧
      distance a.toList b.toList = distance b.toList a.toList ∧
      (distance a.toList b.toList = 0 ↔ a = b) ∧
      (∀ middle : String, distance a.toList b.toList ≤
        distance a.toList middle.toList + distance middle.toList b.toList) ∧
      distanceInPlace? a.toList b.toList = some (distance a.toList b.toList) := by
  refine ⟨?least, distance_eq_leastEdits _ _, ?symmetric, ?zero, ?triangle,
    distanceInPlace?_eq _ _⟩
  case least =>
    rw [distance_eq_leastEdits]
    exact isLeast_leastEdits _ _
  case symmetric =>
    rw [distance_eq_leastEdits, distance_eq_leastEdits, leastEdits_comm]
  case zero =>
    rw [distance_eq_leastEdits, leastEdits_eq_zero_iff, String.toList_inj]
  case triangle =>
    intro middle
    simp only [distance_eq_leastEdits]
    exact leastEdits_triangle _ _ _

example : distance "kitten".toList "sitting".toList = 3 := by decide

end LuaDecl.Text.EditDistance
