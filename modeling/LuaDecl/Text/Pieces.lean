/-!
# Cutting a text

A text is cut into the pieces between the occurrences of a character, or in two at the first
occurrence of a mark. Main statements: joining the pieces gives the text back, and so do the
two halves with the mark between them.
-/

namespace LuaDecl.Text

/-- The pieces between the occurrences of `mark`: one more than there are occurrences. -/
def pieces (mark : Char) : List Char → List (List Char)
  | [] => [[]]
  | c :: rest =>
    if c = mark then [] :: pieces mark rest
    else
      match pieces mark rest with
      | [] => [[c]]
      | piece :: more => (c :: piece) :: more

/-- The pieces with `mark` between each two neighbours. -/
def joinPieces (mark : Char) : List (List Char) → List Char
  | [] => []
  | [piece] => piece
  | piece :: more => piece ++ mark :: joinPieces mark more

/-- The rest of a text that begins with `mark`. -/
def after? : List Char → List Char → Option (List Char)
  | [], s => some s
  | _ :: _, [] => none
  | m :: mark, c :: s => if m = c then after? mark s else none

/-- The text before the first occurrence of `mark` and the text after it. -/
def cut? (mark : List Char) : List Char → Option (List Char × List Char)
  | [] => if mark = [] then some ([], []) else none
  | c :: rest =>
    match after? mark (c :: rest) with
    | some after => some ([], after)
    | none => (cut? mark rest).map fun halves => (c :: halves.1, halves.2)

theorem after?_eq_some_iff {mark s rest : List Char} :
    after? mark s = some rest ↔ s = mark ++ rest := by
  fun_induction after? mark s with
  | case1 s => simp [eq_comm]
  | case2 => simp
  | case3 mark c s ih => simp [ih]
  | case4 m mark c s h => simp [Ne.symm h]

theorem pieces_ne_nil (mark : Char) (s : List Char) : pieces mark s ≠ [] := by
  cases s with
  | nil => simp [pieces]
  | cons c rest =>
    unfold pieces
    split
    · simp
    · split <;> simp

theorem joinPieces_pieces (mark : Char) (s : List Char) :
    joinPieces mark (pieces mark s) = s := by
  induction s with
  | nil => rfl
  | cons c rest ih =>
    unfold pieces
    split
    · next h =>
      cases hp : pieces mark rest with
      | nil => exact absurd hp (pieces_ne_nil mark rest)
      | cons piece more => rw [hp] at ih; simp [joinPieces, ih, h]
    · split
      · next hp => exact absurd hp (pieces_ne_nil mark rest)
      · next piece more hp =>
        rw [hp] at ih
        cases more with
        | nil => simpa [joinPieces] using ih
        | cons next more => simpa [joinPieces] using ih

/-- The halves with the mark between them are the text. -/
theorem append_of_cut? {mark s before after : List Char} (h : cut? mark s = some (before, after)) :
    s = before ++ mark ++ after := by
  induction s generalizing before with
  | nil =>
    unfold cut? at h
    split at h
    · next hm => simp_all
    · simp at h
  | cons c rest ih =>
    unfold cut? at h
    split at h
    · next tail hp =>
      obtain ⟨rfl, rfl⟩ := Prod.mk.inj (Option.some.inj h)
      simpa using after?_eq_some_iff.mp hp
    · obtain ⟨⟨b, a⟩, hb, he⟩ := Option.map_eq_some_iff.mp h
      obtain ⟨rfl, rfl⟩ := Prod.mk.inj he
      simp [ih hb]

theorem length_le_of_cut? {mark s before after : List Char}
    (h : cut? mark s = some (before, after)) : after.length ≤ s.length := by
  have := congrArg List.length (append_of_cut? h)
  simp at this
  omega

end LuaDecl.Text
