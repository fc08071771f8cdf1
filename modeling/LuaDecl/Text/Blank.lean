/-!
# White space

The white space of Lua sources is the Unicode property White_Space. Main statements: trimming
takes away blanks only, and trimming twice is trimming once.
-/

namespace LuaDecl.Text

/-- The Unicode property White_Space. -/
def isBlank (c : Char) : Bool :=
  ('\t' ≤ c && c ≤ '\r') || c == ' ' || c == '\u0085' || c == '\u00a0' || c == '\u1680' ||
    ('\u2000' ≤ c && c ≤ '\u200a') || c == '\u2028' || c == '\u2029' || c == '\u202f' ||
    c == '\u205f' || c == '\u3000'

/-- The text without the blanks at its start. -/
def trimStart (s : List Char) : List Char :=
  s.dropWhile isBlank

/-- The text without the blanks at its end. -/
def trimEnd (s : List Char) : List Char :=
  (s.reverse.dropWhile isBlank).reverse

/-- The text without the blanks at either end. -/
def trim (s : List Char) : List Char :=
  trimEnd (trimStart s)

theorem trimStart_suffix (s : List Char) : ∃ blanks, s = blanks ++ trimStart s ∧
    ∀ c ∈ blanks, isBlank c := by
  refine ⟨s.takeWhile isBlank, (List.takeWhile_append_dropWhile).symm, ?_⟩
  intro c hc
  exact List.all_eq_true.mp (List.all_takeWhile) c hc

theorem trimStart_of_not_isBlank {c : Char} {s : List Char} (h : isBlank c = false) :
    trimStart (c :: s) = c :: s := by
  simp [trimStart, h]

theorem trimEnd_append_of_not_isBlank {c : Char} {s : List Char} (h : isBlank c = false) :
    trimEnd (s ++ [c]) = s ++ [c] := by
  simp [trimEnd, h]

private theorem dropWhile_dropWhile (p : Char → Bool) (s : List Char) :
    (s.dropWhile p).dropWhile p = s.dropWhile p := by
  induction s with
  | nil => rfl
  | cons c rest ih =>
    cases h : p c with
    | true => simpa [h] using ih
    | false => simp [h]

/-- Trimming the end leaves the first character where it is, unless it is a blank. -/
theorem trimStart_trimEnd_trimStart (s : List Char) :
    trimStart (trimEnd (trimStart s)) = trimEnd (trimStart s) := by
  induction s with
  | nil => rfl
  | cons c rest ih =>
    cases h : isBlank c with
    | true => simpa [trimStart, h] using ih
    | false =>
      rw [trimStart_of_not_isBlank h]
      have : ∃ tail, trimEnd (c :: rest) = c :: tail := by
        simp only [trimEnd, List.reverse_cons, List.dropWhile_append]
        split
        · exact ⟨[], by simp [h]⟩
        · exact ⟨(rest.reverse.dropWhile isBlank).reverse, by simp⟩
      obtain ⟨tail, ht⟩ := this
      rw [ht, trimStart_of_not_isBlank h]

theorem trim_trim (s : List Char) : trim (trim s) = trim s := by
  rw [trim, trim, trimStart_trimEnd_trimStart]
  simp [trimEnd, dropWhile_dropWhile]

end LuaDecl.Text
