import LuaDecl.Text.Pieces

/-!
# Long comments

A long comment opens with two dashes, a bracket, any number of equal signs (its level) and a second
bracket, and runs through the first closing bracket pair of the same level. An opener without a
close of its level opens nothing. Main statement: what a removed comment takes away is an opener,
a body and the close.
-/

namespace LuaDecl.Comment

open Text

/-- The level of the long comment that begins the text, and the text after its opener. -/
def longOpener? : List Char → Option (Nat × List Char)
  | '-' :: '-' :: '[' :: rest =>
    match rest.dropWhile (· = '=') with
    | '[' :: body => some ((rest.takeWhile (· = '=')).length, body)
    | _ => none
  | _ => none

/-- The mark that opens a long comment of the given level. -/
def longOpen (level : Nat) : List Char :=
  '-' :: '-' :: '[' :: (List.replicate level '=' ++ ['['])

/-- The mark that closes a long comment of the given level. -/
def longClose (level : Nat) : List Char :=
  ']' :: (List.replicate level '=' ++ [']'])

/-- The text after the closed long comment that begins the text, if one does. -/
def afterLong? (s : List Char) : Option (List Char) := do
  let (level, body) ← longOpener? s
  let (_, after) ← cut? (longClose level) body
  return after

theorem eq_append_of_longOpener? {s body : List Char} {level : Nat}
    (h : longOpener? s = some (level, body)) : s = longOpen level ++ body := by
  unfold longOpener? at h
  split at h
  · next rest =>
    split at h
    · next body' hb =>
      obtain ⟨rfl, rfl⟩ := Prod.mk.inj (Option.some.inj h)
      have signs : rest.takeWhile (· = '=') =
          List.replicate (rest.takeWhile (· = '=')).length '=' :=
        List.eq_replicate_iff.mpr ⟨rfl, fun c hc => by
          simpa using List.all_eq_true.mp (List.all_takeWhile (p := (· = '=')) (l := rest)) c hc⟩
      have whole := List.takeWhile_append_dropWhile (p := (· = '=')) (l := rest)
      rw [hb, signs] at whole
      have spelled (n : Nat) : longOpen n ++ body' =
          '-' :: '-' :: '[' :: (List.replicate n '=' ++ '[' :: body') := by simp [longOpen]
      rw [spelled, whole]
    · simp at h
  · simp at h

theorem longOpener?_longOpen_append (level : Nat) (body : List Char) :
    longOpener? (longOpen level ++ body) = some (level, body) := by
  have drop : (List.replicate level '=' ++ '[' :: body).dropWhile (· = '=') = '[' :: body := by
    induction level <;> simp_all [List.replicate_succ]
  have take : (List.replicate level '=' ++ '[' :: body).takeWhile (· = '=') =
      List.replicate level '=' := by
    induction level <;> simp_all [List.replicate_succ]
  simp [longOpen, longOpener?, drop, take]

theorem longOpener?_eq_some_iff {s body : List Char} {level : Nat} :
    longOpener? s = some (level, body) ↔ s = longOpen level ++ body :=
  ⟨eq_append_of_longOpener?, fun h => h ▸ longOpener?_longOpen_append level body⟩

/-- A closed long comment is an opener, a body and the close of the same level. -/
theorem exists_of_afterLong? {s after : List Char} (h : afterLong? s = some after) :
    ∃ level body, s = longOpen level ++ body ++ longClose level ++ after := by
  simp only [afterLong?, Option.bind_eq_bind, Option.bind_eq_some_iff] at h
  obtain ⟨⟨level, rest⟩, ho, ⟨body, tail⟩, hc, ht⟩ := h
  cases Option.some.inj ht
  refine ⟨level, body, ?_⟩
  have inner : rest = body ++ longClose level ++ tail := append_of_cut? hc
  rw [eq_append_of_longOpener? ho, inner]
  simp

theorem length_lt_of_longOpener? {s body : List Char} {level : Nat}
    (h : longOpener? s = some (level, body)) : body.length < s.length := by
  unfold longOpener? at h
  split at h
  · next rest =>
    split at h
    · next body' hb =>
      obtain ⟨-, rfl⟩ := Prod.mk.inj (Option.some.inj h)
      have := (List.dropWhile_suffix (l := rest) (· = '=')).length_le
      rw [hb] at this
      simp at this ⊢
      omega
    · simp at h
  · simp at h

theorem length_lt_of_afterLong? {s after : List Char} (h : afterLong? s = some after) :
    after.length < s.length := by
  simp only [afterLong?, Option.bind_eq_bind, Option.bind_eq_some_iff] at h
  obtain ⟨⟨level, body⟩, ho, ⟨inner, tail⟩, hc, ht⟩ := h
  cases Option.some.inj ht
  exact Nat.lt_of_le_of_lt (length_le_of_cut? hc) (length_lt_of_longOpener? ho)

/-- The text without its closed long comments, each read from the first place where one begins. -/
def removeLong (s : List Char) : List Char :=
  match s with
  | [] => []
  | c :: rest =>
    match _h : afterLong? (c :: rest) with
    | some after => removeLong after
    | none => c :: removeLong rest
termination_by s.length
decreasing_by
  · exact length_lt_of_afterLong? ‹_›
  · simp

theorem removeLong_nil : removeLong [] = [] := by
  rw [removeLong]

theorem removeLong_of_afterLong? {s after : List Char} (h : afterLong? s = some after) :
    removeLong s = removeLong after := by
  cases s with
  | nil => simp [afterLong?, longOpener?] at h
  | cons c rest =>
    rw [removeLong]
    split
    · next after' h' => rw [h] at h'; cases h'; rfl
    · next h' => rw [h] at h'; cases h'

theorem removeLong_cons_of_none {c : Char} {rest : List Char}
    (h : afterLong? (c :: rest) = none) : removeLong (c :: rest) = c :: removeLong rest := by
  rw [removeLong]
  split
  · next h' => rw [h] at h'; cases h'
  · rfl

end LuaDecl.Comment
