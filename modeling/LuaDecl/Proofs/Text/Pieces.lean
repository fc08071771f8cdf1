import LuaDecl.Text.Pieces

/-!
# Pieces between marks

A mark separates the pieces before it from those behind it. The pieces of a text hold no mark, and
texts of which that is true are the pieces of what they are joined to, so cutting and joining undo
each other (`pieces_joinPieces`).
-/

namespace LuaDecl.Text

theorem pieces_append (mark : Char) (s t : List Char) :
    pieces mark (s ++ mark :: t) = pieces mark s ++ pieces mark t := by
  induction s with
  | nil => simp [pieces]
  | cons c rest ih =>
    rw [List.cons_append, pieces, pieces, ih]
    split
    · rfl
    · cases cut : pieces mark rest with
      | nil => exact absurd cut (pieces_ne_nil mark rest)
      | cons piece more => rfl

theorem pieces_of_not_mem {mark : Char} {s : List Char} (free : mark ∉ s) :
    pieces mark s = [s] := by
  induction s with
  | nil => rfl
  | cons c rest ih =>
    have other := List.ne_of_not_mem_cons free
    have later := List.not_mem_of_not_mem_cons free
    rw [pieces, if_neg (Ne.symm other), ih later]

theorem not_mem_of_mem_pieces {mark : Char} {s piece : List Char}
    (member : piece ∈ pieces mark s) : mark ∉ piece := by
  induction s generalizing piece with
  | nil =>
    rw [pieces, List.mem_singleton] at member
    simp [member]
  | cons c rest ih =>
    unfold pieces at member
    split at member
    · rcases List.mem_cons.mp member with rfl | later
      · simp
      · exact ih later
    · next other =>
      split at member
      · rw [List.mem_singleton.mp member]
        simpa using Ne.symm other
      · next first more cut =>
        rw [cut] at ih
        rcases List.mem_cons.mp member with rfl | later
        · have fresh := ih List.mem_cons_self
          simp [fresh, Ne.symm other]
        · exact ih (List.mem_cons_of_mem first later)

/-- Texts without the mark are the pieces of what they are joined to. -/
theorem pieces_joinPieces {mark : Char} {texts : List (List Char)} (nonempty : texts ≠ [])
    (free : ∀ t ∈ texts, mark ∉ t) : pieces mark (joinPieces mark texts) = texts := by
  induction texts with
  | nil => exact absurd rfl nonempty
  | cons t texts ih =>
    obtain ⟨first, others⟩ := List.forall_mem_cons.mp free
    cases texts with
    | nil => exact pieces_of_not_mem first
    | cons next texts =>
      rw [joinPieces, pieces_append, pieces_of_not_mem first, ih (by simp) others]
      · rfl
      · simp

/-- There is one more piece than there are marks. -/
theorem length_pieces (mark : Char) (s : List Char) :
    (pieces mark s).length = s.count mark + 1 := by
  induction s with
  | nil => rfl
  | cons c rest ih =>
    by_cases here : c = mark
    · rw [pieces, if_pos here, here, List.length_cons, ih, List.count_cons_self]
    · rw [List.count_cons_of_ne here, ← ih, pieces, if_neg here]
      cases cut : pieces mark rest with
      | nil => exact absurd cut (pieces_ne_nil mark rest)
      | cons piece more => rfl

end LuaDecl.Text
