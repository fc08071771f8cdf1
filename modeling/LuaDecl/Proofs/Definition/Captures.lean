import LuaDecl.Proofs.Definition.Recognition

/-!
# What a shape captures, line by line

The captures of the hits of a shape do not depend on where the text stands, so the search can be
followed from line to line: a line from whose start the shape does not fit gives nothing, and after
a fit the search waits for the next line.
-/

namespace LuaDecl.Definition.Shape

open Text

theorem hitsFrom_of_scan? {shape : Shape} {s after : List Char} {c : Capture}
    (h : shape.scan? s = some (c, after)) (position : Nat) :
    shape.hitsFrom position true s =
      ⟨position, position + (s.length - after.length), c⟩ ::
        shape.hitsFrom (position + (s.length - after.length)) false after := by
  cases s with
  | nil => exact absurd (length_lt_of_scan? h) (by simp)
  | cons d rest =>
    rw [hitsFrom]
    split
    · next other tail found =>
      simp only [if_true, h, Option.some.injEq, Prod.mk.injEq] at found
      obtain ⟨rfl, rfl⟩ := found
      rfl
    · next fails => simp [h] at fails

theorem hitsFrom_cons {shape : Shape} {c : Char} {rest : List Char} {atLineStart : Bool}
    (h : atLineStart = true → shape.scan? (c :: rest) = none) (position : Nat) :
    shape.hitsFrom position atLineStart (c :: rest) =
      shape.hitsFrom (position + 1) (c == '\n') rest := by
  rw [hitsFrom]
  split
  · next found =>
    split at found
    · next start => simp [h start] at found
    · simp at found
  · rfl

/-- What the shape captures in a text, in order. -/
def captures (shape : Shape) (atLineStart : Bool) (s : List Char) : List Capture :=
  (shape.hitsFrom 0 atLineStart s).map Hit.capture

theorem map_capture_hitsFrom (shape : Shape) (position other : Nat) (atLineStart : Bool)
    (s : List Char) :
    (shape.hitsFrom position atLineStart s).map Hit.capture =
      (shape.hitsFrom other atLineStart s).map Hit.capture := by
  fun_induction hitsFrom shape position atLineStart s generalizing other with
  | case1 => simp [hitsFrom]
  | case2 position atLineStart c rest capture after scanned stop ih =>
    cases atLineStart with
    | false => simp at scanned
    | true =>
      rw [dif_pos rfl] at scanned
      rw [hitsFrom_of_scan? scanned other, List.map_cons, List.map_cons, ih]
  | case3 position atLineStart c rest scanned ih =>
    have fails : atLineStart = true → shape.scan? (c :: rest) = none := by
      rintro rfl
      rwa [dif_pos rfl] at scanned
    rw [hitsFrom_cons fails, ih]

theorem map_capture_hits (shape : Shape) (text : List Char) :
    (shape.hits text).map Hit.capture = shape.captures true text := rfl

theorem captures_of_scan? {shape : Shape} {s after : List Char} {c : Capture}
    (h : shape.scan? s = some (c, after)) :
    shape.captures true s = c :: shape.captures false after := by
  rw [captures, hitsFrom_of_scan? h, List.map_cons, map_capture_hitsFrom shape _ 0]
  rfl

theorem captures_cons {shape : Shape} {c : Char} {rest : List Char} {atLineStart : Bool}
    (h : atLineStart = true → shape.scan? (c :: rest) = none) :
    shape.captures atLineStart (c :: rest) = shape.captures (c == '\n') rest := by
  rw [captures, hitsFrom_cons h, map_capture_hitsFrom shape _ 0]
  rfl

/-- Inside a line nothing is captured. -/
theorem captures_false_append (shape : Shape) {line : List Char} (h : '\n' ∉ line)
    (s : List Char) : shape.captures false (line ++ '\n' :: s) = shape.captures true s := by
  induction line with
  | nil => exact captures_cons (by simp)
  | cons c line ih =>
    obtain ⟨first, tail⟩ := not_or.mp (fun m => h (List.mem_cons.mpr m))
    have here : (c == '\n') = false := by simpa using Ne.symm first
    rw [List.cons_append, captures_cons (by simp), here, ih tail]

/-- A line from whose start the shape does not fit gives nothing. -/
theorem captures_line {shape : Shape} {line s : List Char} (h : '\n' ∉ line)
    (fails : shape.scan? (line ++ '\n' :: s) = none) :
    shape.captures true (line ++ '\n' :: s) = shape.captures true s := by
  cases line with
  | nil =>
    apply captures_cons
    intro _
    exact fails
  | cons c line =>
    obtain ⟨first, tail⟩ := not_or.mp (fun m => h (List.mem_cons.mpr m))
    have here : (c == '\n') = false := by simpa using Ne.symm first
    rw [List.cons_append] at fails ⊢
    rw [captures_cons fun _ => fails, here, captures_false_append shape tail]

/-- A shape is looked for behind blanks. -/
theorem scan?_blank_cons (shape : Shape) {c : Char} (h : isBlank c = true) (s : List Char) :
    shape.scan? (c :: s) = shape.scan? s := by
  have skip : trimStart (c :: s) = trimStart s := by simp [trimStart, h]
  cases shape <;> simp only [scan?, statement?, assignment?, skip]

/-- An empty line gives nothing of its own. What stands on the next line may begin on it. -/
theorem captures_emptyLine (shape : Shape) (s : List Char) :
    shape.captures true ('\n' :: s) = shape.captures true s := by
  have same := scan?_blank_cons shape (c := '\n') (by decide) s
  cases h : shape.scan? s with
  | none =>
    rw [h] at same
    apply captures_cons
    intro _
    exact same
  | some found =>
    obtain ⟨c, after⟩ := found
    rw [captures_of_scan? h, captures_of_scan? (same.trans h)]

end LuaDecl.Definition.Shape
