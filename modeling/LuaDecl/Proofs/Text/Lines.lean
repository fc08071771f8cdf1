/-!
# Lines

A text made of lines, each with a line feed behind it. The first line feed cuts such a text after
its first line, and what ends with a line feed at the front of it is some lines from the first on.
-/

namespace LuaDecl.Text

/-- The first occurrence of a mark cuts a text in one way. -/
theorem eq_of_append_cons_eq {mark : Char} {a b rest other : List Char} (ha : mark ∉ a)
    (hb : mark ∉ b) (h : a ++ mark :: rest = b ++ mark :: other) : a = b ∧ rest = other := by
  induction a generalizing b with
  | nil =>
    cases b with
    | nil => exact ⟨rfl, (List.cons.inj h).2⟩
    | cons c b =>
      obtain ⟨rfl, -⟩ := List.cons.inj h
      exact absurd List.mem_cons_self hb
  | cons c a ih =>
    cases b with
    | nil =>
      obtain ⟨rfl, -⟩ := List.cons.inj h
      exact absurd List.mem_cons_self ha
    | cons d b =>
      obtain ⟨rfl, tail⟩ := List.cons.inj h
      have freshA : mark ∉ a := by
        intro member
        exact ha (List.mem_cons_of_mem c member)
      have freshB : mark ∉ b := by
        intro member
        exact hb (List.mem_cons_of_mem c member)
      obtain ⟨rfl, rfl⟩ := ih freshA freshB tail
      exact ⟨rfl, rfl⟩

/-- Lines with a line feed behind each. -/
def unlines (lines : List (List Char)) : List Char :=
  lines.flatMap fun line => line ++ ['\n']

@[simp]
theorem unlines_nil : unlines [] = [] := rfl

@[simp]
theorem unlines_cons (line : List Char) (lines : List (List Char)) :
    unlines (line :: lines) = line ++ '\n' :: unlines lines := by
  simp [unlines]

theorem unlines_append (first second : List (List Char)) :
    unlines (first ++ second) = unlines first ++ unlines second := by
  simp [unlines]

/-- What ends with a line feed at the front of lines is the first line, or it goes on behind it. -/
theorem prefix_unlines_cons {line a : List Char} {lines : List (List Char)} (h : '\n' ∉ line)
    (front : a ++ ['\n'] <+: unlines (line :: lines)) :
    a = line ∨ ∃ later, a = line ++ '\n' :: later ∧ later ++ ['\n'] <+: unlines lines := by
  obtain ⟨rest, whole⟩ := front
  rw [unlines_cons] at whole
  by_cases lineFeed : '\n' ∈ a
  · obtain ⟨first, later, rfl, fresh⟩ := List.eq_append_cons_of_mem lineFeed
    simp only [List.append_assoc, List.cons_append] at whole
    obtain ⟨rfl, left⟩ := eq_of_append_cons_eq fresh h whole
    exact Or.inr ⟨later, rfl, rest, by simpa using left⟩
  · simp only [List.append_assoc, List.cons_append, List.nil_append] at whole
    exact Or.inl (eq_of_append_cons_eq lineFeed h whole).1

end LuaDecl.Text
