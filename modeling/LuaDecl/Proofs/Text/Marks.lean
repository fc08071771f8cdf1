import LuaDecl.Text.Pieces

/-!
# The first occurrence of a mark

Where a text is cut: at the first occurrence of the mark, if the mark occurs at all. Such an
occurrence does not depend on what follows it, no occurrence lies across a character that the mark
does not have, and none begins where its first character does not occur.
-/

namespace LuaDecl.Text

variable {mark : List Char}

/-- Behind the text the mark occurs for the first time: nowhere before, and not across the end. -/
def FirstBehind (mark before : List Char) : Prop :=
  ∀ a b, before ++ mark = a ++ mark ++ b → b = []

theorem after?_eq_none_iff {s : List Char} : after? mark s = none ↔ ¬ mark <+: s := by
  constructor
  · rintro none ⟨rest, whole⟩
    simp [after?_eq_some_iff.mpr whole.symm] at none
  · intro fresh
    cases found : after? mark s with
    | none => rfl
    | some rest => exact absurd ⟨rest, (after?_eq_some_iff.mp found).symm⟩ fresh

theorem cut?_eq_none_iff {s : List Char} : cut? mark s = none ↔ ¬ mark <:+: s := by
  induction s with
  | nil => simp [cut?]
  | cons c rest ih =>
    rw [List.infix_cons_iff, not_or, ← after?_eq_none_iff, ← ih, cut?]
    cases after? mark (c :: rest) <;> simp

theorem FirstBehind.cons {c : Char} {before rest : List Char} (h : FirstBehind mark before)
    (fresh : ¬ mark <+: c :: (before ++ mark ++ rest)) : FirstBehind mark (c :: before) := by
  intro a b whole
  cases a with
  | nil => exact absurd ⟨b ++ rest, by simpa using (congrArg (· ++ rest) whole).symm⟩ fresh
  | cons d a => exact h a b (List.cons.inj whole).2

theorem firstBehind_nil : FirstBehind mark [] := by
  intro a b whole
  have lengths := congrArg List.length whole
  simp only [List.nil_append, List.length_append] at lengths
  exact List.eq_nil_of_length_eq_zero (by omega)

theorem firstBehind_of_cut? {s before after : List Char} (h : cut? mark s = some (before, after)) :
    FirstBehind mark before := by
  induction s generalizing before with
  | nil =>
    obtain rfl : before = [] := by
      have whole := append_of_cut? h
      simp at whole
      exact whole.1
    exact firstBehind_nil
  | cons c rest ih =>
    unfold cut? at h
    split at h
    · obtain ⟨rfl, -⟩ := Prod.mk.inj (Option.some.inj h)
      exact firstBehind_nil
    · next none =>
      obtain ⟨⟨b, a⟩, found, equal⟩ := Option.map_eq_some_iff.mp h
      obtain ⟨rfl, rfl⟩ := Prod.mk.inj equal
      have fresh := after?_eq_none_iff.mp none
      rw [append_of_cut? found] at fresh
      exact (ih found).cons fresh

/-- A text is cut at the first occurrence in one way. -/
theorem FirstBehind.unique {before after other rest : List Char} (h : FirstBehind mark before)
    (ho : FirstBehind mark other) (whole : before ++ mark ++ after = other ++ mark ++ rest) :
    before = other ∧ after = rest := by
  rcases List.append_eq_append_iff.mp whole with ⟨c, longer, left⟩ | ⟨c, longer, left⟩
  · obtain rfl := ho before c longer
    simp_all
  · obtain rfl := h other c longer
    simp_all

theorem cut?_eq_some_iff {s before after : List Char} :
    cut? mark s = some (before, after) ↔ s = before ++ mark ++ after ∧ FirstBehind mark before := by
  constructor
  · intro found
    exact ⟨append_of_cut? found, firstBehind_of_cut? found⟩
  · rintro ⟨rfl, first⟩
    cases found : cut? mark (before ++ mark ++ after) with
    | none => exact absurd ⟨before, after, rfl⟩ (cut?_eq_none_iff.mp found)
    | some halves =>
      obtain ⟨rfl, rfl⟩ := first.unique (firstBehind_of_cut? found) (append_of_cut? found)
      rfl

/-! ### Longer texts -/

/-- What stands at the front of a text stands before any character that it does not have. -/
theorem prefix_of_prefix_append_cons {a s : List Char} {c : Char} (hc : c ∉ mark)
    (front : mark <+: a ++ c :: s) : mark <+: a := by
  have head : a ++ [c] <+: a ++ c :: s := ⟨s, by simp⟩
  by_cases within : mark.length ≤ a.length
  · exact List.prefix_of_prefix_length_le front (List.prefix_append a (c :: s)) within
  · have across : a ++ [c] <+: mark := by
      refine List.prefix_of_prefix_length_le head front ?_
      simp only [List.length_append, List.length_cons, List.length_nil]
      omega
    exact absurd (across.subset (by simp)) hc

theorem cut?_append_of_some {s before after : List Char} (h : cut? mark s = some (before, after))
    (rest : List Char) : cut? mark (s ++ rest) = some (before, after ++ rest) := by
  obtain ⟨rfl, first⟩ := cut?_eq_some_iff.mp h
  exact cut?_eq_some_iff.mpr ⟨by simp, first⟩

/-- Behind a text without the mark, and a character that the mark does not have, the first
occurrence is that of the rest. -/
theorem cut?_append_cons_of_none {a : List Char} (h : cut? mark a = none) {c : Char}
    (hc : c ∉ mark) (s : List Char) :
    cut? mark (a ++ c :: s) = (cut? mark s).map fun halves => (a ++ c :: halves.1, halves.2) := by
  induction a with
  | nil =>
    have apart : after? mark (c :: s) = none := by
      rw [after?_eq_none_iff]
      intro front
      have empty : mark <+: [] := prefix_of_prefix_append_cons (a := []) hc front
      exact cut?_eq_none_iff.mp h empty.isInfix
    rw [List.nil_append, cut?, apart]
    rfl
  | cons d a ih =>
    have fresh := cut?_eq_none_iff.mp h
    rw [List.infix_cons_iff, not_or] at fresh
    have apart : after? mark (d :: (a ++ c :: s)) = none := by
      rw [after?_eq_none_iff]
      intro front
      exact fresh.1 (prefix_of_prefix_append_cons (a := d :: a) hc front)
    rw [List.cons_append, cut?, apart, ih (cut?_eq_none_iff.mpr fresh.2), Option.map_map]
    rfl

/-- No occurrence begins in a text without the first character of the mark. -/
theorem cut?_append_of_not_mem {m : Char} {u : List Char} (h : m ∉ u) (v : List Char) :
    cut? (m :: mark) (u ++ v) =
      (cut? (m :: mark) v).map fun halves => (u ++ halves.1, halves.2) := by
  induction u with
  | nil => simp
  | cons c u ih =>
    have apart : m ≠ c := List.ne_of_not_mem_cons h
    have rest : m ∉ u := List.not_mem_of_not_mem_cons h
    rw [List.cons_append, cut?, after?, if_neg apart, ih rest, Option.map_map]
    rfl

end LuaDecl.Text
