import Mathlib.Order.Bounds.Basic

/-!
# Edits

An edit inserts, deletes or replaces one character of a text. The least number of edits that turn
one text into another is found by a recursion on both texts: their first characters are matched, or
one of them is inserted or deleted (`isLeast_leastEdits`). Edits can be undone, put one after the
other and read backwards, so this number is a distance, and the same for the reversed texts.
-/

namespace LuaDecl.Text

/-- One edit turns the first text into the second. -/
inductive Edit : List Char → List Char → Prop
  | insert (front : List Char) (c : Char) (rest : List Char) :
      Edit (front ++ rest) (front ++ c :: rest)
  | delete (front : List Char) (c : Char) (rest : List Char) :
      Edit (front ++ c :: rest) (front ++ rest)
  | replace (front : List Char) (c d : Char) (rest : List Char) :
      Edit (front ++ c :: rest) (front ++ d :: rest)

/-- A number of edits, one after the other, turn the first text into the second. -/
inductive Edits : Nat → List Char → List Char → Prop
  | none (s : List Char) : Edits 0 s s
  | more {n s t u} : Edit s t → Edits n t u → Edits (n + 1) s u

/-- The cost of matching a character with another: that of replacing it if they differ. -/
def matchCost (c d : Char) : Nat :=
  if c = d then 0 else 1

/-- The least number of edits that turn one text into another. -/
def leastEdits : List Char → List Char → Nat
  | [], t => t.length
  | s, [] => s.length
  | c :: s, d :: t =>
    min (leastEdits s t + matchCost c d)
      (min (leastEdits (c :: s) t + 1) (leastEdits s (d :: t) + 1))
termination_by s t => s.length + t.length

variable {s t u : List Char} {c d : Char} {m n : Nat}

theorem matchCost_le (c d : Char) : matchCost c d ≤ 1 := by
  unfold matchCost
  split <;> omega

/-! ### One edit after another -/

theorem Edit.symm (edit : Edit s t) : Edit t s := by
  cases edit with
  | insert front c rest => exact .delete front c rest
  | delete front c rest => exact .insert front c rest
  | replace front c d rest => exact .replace front d c rest

theorem Edit.cons (c : Char) (edit : Edit s t) : Edit (c :: s) (c :: t) := by
  cases edit with
  | insert front d rest => exact .insert (c :: front) d rest
  | delete front d rest => exact .delete (c :: front) d rest
  | replace front d e rest => exact .replace (c :: front) d e rest

theorem Edit.reverse (edit : Edit s t) : Edit s.reverse t.reverse := by
  cases edit with
  | insert front c rest => simpa using Edit.insert rest.reverse c front.reverse
  | delete front c rest => simpa using Edit.delete rest.reverse c front.reverse
  | replace front c d rest => simpa using Edit.replace rest.reverse c d front.reverse

namespace Edits

theorem trans (first : Edits m s t) (second : Edits n t u) : Edits (m + n) s u := by
  induction first with
  | none _ => rwa [Nat.zero_add]
  | more edit _ ih =>
    rw [Nat.add_right_comm]
    exact .more edit (ih second)

theorem symm (edits : Edits n s t) : Edits n t s := by
  induction edits with
  | none s => exact .none s
  | more edit _ ih => exact ih.trans (.more edit.symm (.none _))

theorem cons (c : Char) (edits : Edits n s t) : Edits n (c :: s) (c :: t) := by
  induction edits with
  | none s => exact .none (c :: s)
  | more edit _ ih => exact .more (edit.cons c) ih

theorem reverse (edits : Edits n s t) : Edits n s.reverse t.reverse := by
  induction edits with
  | none s => exact .none s.reverse
  | more edit _ ih => exact .more edit.reverse ih

theorem eq_of_zero (edits : Edits 0 s t) : s = t := by
  cases edits
  rfl

/-- Behind a first character that is inserted. -/
theorem insert (edits : Edits n s t) : Edits (n + 1) s (d :: t) :=
  .more (.insert [] d s) (edits.cons d)

/-- Behind a first character that is deleted. -/
theorem delete (edits : Edits n s t) : Edits (n + 1) (c :: s) t :=
  .more (.delete [] c s) edits

/-- Behind first characters that are matched. -/
theorem matched (edits : Edits n s t) : Edits (n + matchCost c d) (c :: s) (d :: t) := by
  unfold matchCost
  split
  · next equal => exact equal ▸ edits.cons c
  · exact .more (.replace [] c d s) (edits.cons d)

end Edits

/-! ### The least number -/

@[simp]
theorem leastEdits_nil_left (t : List Char) : leastEdits [] t = t.length := by
  rw [leastEdits]

@[simp]
theorem leastEdits_nil_right (s : List Char) : leastEdits s [] = s.length := by
  cases s <;> simp [leastEdits]

theorem leastEdits_cons_cons (c d : Char) (s t : List Char) :
    leastEdits (c :: s) (d :: t) =
      min (leastEdits s t + matchCost c d)
        (min (leastEdits (c :: s) t + 1) (leastEdits s (d :: t) + 1)) := by
  rw [leastEdits]

/-- That many edits are enough. -/
theorem edits_leastEdits (s t : List Char) : Edits (leastEdits s t) s t := by
  fun_induction leastEdits s t with
  | case1 t =>
    induction t with
    | nil => exact .none []
    | cons d t ih => exact ih.insert
  | case2 s nonempty =>
    clear nonempty
    induction s with
    | nil => exact .none []
    | cons c s ih => exact ih.delete
  | case3 c s d t matched inserted deleted =>
    rw [← leastEdits_cons_cons]
    obtain least | least | least :
        leastEdits (c :: s) (d :: t) = leastEdits s t + matchCost c d ∨
          leastEdits (c :: s) (d :: t) = leastEdits (c :: s) t + 1 ∨
          leastEdits (c :: s) (d :: t) = leastEdits s (d :: t) + 1 := by
      rw [leastEdits_cons_cons]
      omega
    · exact least ▸ matched.matched
    · exact least ▸ inserted.insert
    · exact least ▸ deleted.delete

theorem leastEdits_self (s : List Char) : leastEdits s s = 0 := by
  induction s with
  | nil => simp
  | cons c s ih =>
    rw [leastEdits_cons_cons, ih, matchCost, if_pos rfl]
    simp

theorem leastEdits_cons_right_le (s : List Char) (d : Char) (t : List Char) :
    leastEdits s (d :: t) ≤ leastEdits s t + 1 := by
  cases s with
  | nil => simp
  | cons c s =>
    rw [leastEdits_cons_cons]
    omega

-- To insert, delete or replace the first character saves at most one edit.
theorem leastEdits_cons_left_le (c : Char) (s u : List Char) :
    leastEdits (c :: s) u ≤ leastEdits s u + 1 := by
  cases u with
  | nil => simp
  | cons e u =>
    rw [leastEdits_cons_cons]
    omega

theorem leastEdits_le_cons_left (c : Char) (s u : List Char) :
    leastEdits s u ≤ leastEdits (c :: s) u + 1 := by
  induction u with
  | nil =>
    simp only [leastEdits_nil_right, List.length_cons]
    omega
  | cons e u ih =>
    have added := leastEdits_cons_right_le s e u
    rw [leastEdits_cons_cons]
    omega

theorem leastEdits_replace_left_le (c d : Char) (s u : List Char) :
    leastEdits (c :: s) u ≤ leastEdits (d :: s) u + 1 := by
  induction u with
  | nil => simp
  | cons e u ih =>
    have cost := matchCost_le c e
    rw [leastEdits_cons_cons, leastEdits_cons_cons]
    omega

/-- An edit behind a first character saves no more than it does without. -/
theorem leastEdits_cons_left_le_cons_left (c : Char)
    (near : ∀ u, leastEdits s u ≤ leastEdits t u + 1) (u : List Char) :
    leastEdits (c :: s) u ≤ leastEdits (c :: t) u + 1 := by
  induction u with
  | nil => simpa using near []
  | cons e u ih =>
    have shorter := near u
    have same := near (e :: u)
    rw [leastEdits_cons_cons, leastEdits_cons_cons]
    omega

/-- One edit saves at most one edit. -/
theorem leastEdits_le_of_edit (edit : Edit s t) (u : List Char) :
    leastEdits s u ≤ leastEdits t u + 1 := by
  have behind {s t : List Char} (front : List Char)
      (near : ∀ u, leastEdits s u ≤ leastEdits t u + 1) (u : List Char) :
      leastEdits (front ++ s) u ≤ leastEdits (front ++ t) u + 1 := by
    induction front generalizing u with
    | nil => exact near u
    | cons c front ih => exact leastEdits_cons_left_le_cons_left c ih u
  cases edit with
  | insert front c rest => exact behind front (leastEdits_le_cons_left c rest) u
  | delete front c rest => exact behind front (leastEdits_cons_left_le c rest) u
  | replace front c d rest => exact behind front (leastEdits_replace_left_le c d rest) u

/-- No fewer edits are enough. -/
theorem leastEdits_le (edits : Edits n s t) : leastEdits s t ≤ n := by
  induction edits with
  | none s => exact (leastEdits_self s).le
  | more edit _ ih => exact (leastEdits_le_of_edit edit _).trans (Nat.succ_le_succ ih)

theorem isLeast_leastEdits (s t : List Char) : IsLeast {n | Edits n s t} (leastEdits s t) :=
  ⟨edits_leastEdits s t, fun _ edits => leastEdits_le edits⟩

/-! ### A distance -/

theorem leastEdits_comm (s t : List Char) : leastEdits s t = leastEdits t s :=
  Nat.le_antisymm (leastEdits_le (edits_leastEdits t s).symm)
    (leastEdits_le (edits_leastEdits s t).symm)

theorem leastEdits_eq_zero_iff : leastEdits s t = 0 ↔ s = t := by
  constructor
  · intro zero
    have edits := edits_leastEdits s t
    rw [zero] at edits
    exact edits.eq_of_zero
  · rintro rfl
    exact leastEdits_self s

theorem leastEdits_triangle (s t u : List Char) :
    leastEdits s u ≤ leastEdits s t + leastEdits t u :=
  leastEdits_le ((edits_leastEdits s t).trans (edits_leastEdits t u))

theorem leastEdits_reverse (s t : List Char) :
    leastEdits s.reverse t.reverse = leastEdits s t := by
  refine Nat.le_antisymm (leastEdits_le (edits_leastEdits s t).reverse) ?_
  simpa using leastEdits_le (edits_leastEdits s.reverse t.reverse).reverse

/-- Read backwards, the recursion matches the last characters. -/
theorem leastEdits_concat (s t : List Char) (c d : Char) :
    leastEdits (s ++ [c]) (t ++ [d]) =
      min (leastEdits s t + matchCost c d)
        (min (leastEdits (s ++ [c]) t + 1) (leastEdits s (t ++ [d]) + 1)) := by
  have backwards := leastEdits_cons_cons c d s.reverse t.reverse
  simpa only [← List.reverse_concat, leastEdits_reverse] using backwards

end LuaDecl.Text
