/-!
# Edit distance

The least number of characters to insert, delete or replace that turns one text into another. It is
computed row by row: the row of a text holds its distances to the starts of the other text, shortest
start first. One row is enough if it is overwritten from left to right, with the entry that was
overwritten last in hand.
-/

namespace LuaDecl.Text.EditDistance

/-- The rest of the next row. `left` is the distance found last in the new row, `diagonal` the
distance in the old row that stands above it, and the old row goes on with `above`. -/
def nextEntries (c : Char) (left diagonal : Nat) : List Char → List Nat → List Nat
  | t :: target, above :: old =>
    let replaced := diagonal + if c = t then 0 else 1
    let entry := min replaced (min (left + 1) (above + 1))
    entry :: nextEntries c entry above target old
  | _, _ => []

/-- The row of a text with one more character `c` at its end. -/
def nextRow (target : List Char) (row : List Nat) (c : Char) : List Nat :=
  match row with
  | [] => []
  | first :: old => (first + 1) :: nextEntries c (first + 1) first target old

/-- The row of the empty text: each start of the target costs its length. -/
def firstRow (target : List Char) : List Nat :=
  List.range (target.length + 1)

/-- The row of a text: its distances to the starts of the target. -/
def row (source target : List Char) : List Nat :=
  source.foldl (nextRow target) (firstRow target)

/-- The edit distance of two texts. -/
def distance (source target : List Char) : Nat :=
  (row source target).getLastD 0

/-- Overwrites the entries of a row behind position `j`, one for each character of the target.
`diagonal` is what stood at position `j` in the row before. There is no result if a position is
outside the row. -/
def overwrite? (c : Char) (j diagonal : Nat) (row : List Nat) :
    (target : List Char) → Option (List Nat)
  | [] => some row
  | t :: target => do
    let above ← row[j + 1]?
    let left ← row[j]?
    let replaced := diagonal + if c = t then 0 else 1
    let entry := min replaced (min (left + 1) (above + 1))
    overwrite? c (j + 1) above (row.set (j + 1) entry) target

/-- Overwrites the row of a text of length `i` with the rows of the texts that have one more
character of the source, and more. -/
def overwriteRow? (target : List Char) (i : Nat) (row : List Nat) :
    (source : List Char) → Option (List Nat)
  | [] => some row
  | c :: source => do
    let diagonal ← row[0]?
    let row ← overwrite? c 0 diagonal (row.set 0 (i + 1)) target
    overwriteRow? target (i + 1) row source

/-- The edit distance by one row that is overwritten. There is no result if a position is outside
the row. -/
def distanceInPlace? (source target : List Char) : Option Nat := do
  let row ← overwriteRow? target 0 (List.range (target.length + 1)) source
  row[target.length]?

theorem length_nextEntries (c : Char) (left diagonal : Nat) (target : List Char) (old : List Nat) :
    (nextEntries c left diagonal target old).length = min target.length old.length := by
  induction target generalizing left diagonal old with
  | nil => simp [nextEntries]
  | cons t target ih =>
    cases old with
    | nil => simp [nextEntries]
    | cons above old => simp [nextEntries, ih]

/-- Every row holds one entry more than the target has characters. -/
theorem length_row (source target : List Char) :
    (row source target).length = target.length + 1 := by
  have step (r : List Nat) (c : Char) (h : r.length = target.length + 1) :
      (nextRow target r c).length = target.length + 1 := by
    cases r with
    | nil => simp at h
    | cons first old =>
      have : old.length = target.length := by simpa using h
      simp [nextRow, length_nextEntries, this]
  have fold (r : List Nat) (h : r.length = target.length + 1) :
      (source.foldl (nextRow target) r).length = target.length + 1 := by
    induction source generalizing r with
    | nil => exact h
    | cons c source ih => exact ih _ (step r c h)
  exact fold _ (by simp [firstRow])

end LuaDecl.Text.EditDistance
