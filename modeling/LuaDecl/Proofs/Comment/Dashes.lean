import LuaDecl.Comment

/-!
# Texts without double dashes

Comments begin with two dashes and with nothing else, so a text without them is left as it is, also
at the front of another text. Main statements: what is left of a text after the removal of comments
has no two dashes in a row (`uncommented_stripChars`), and both removals pass over the front of a
text that has none and does not end in one.
-/

namespace LuaDecl.Comment

/-- The text has no two dashes in a row. -/
def Uncommented (s : List Char) : Prop :=
  ¬ ['-', '-'] <:+: s

/-- Two dashes stand at the front of the text. -/
def BeginsDashes (s : List Char) : Prop :=
  ['-', '-'] <+: s

theorem beginsDashes_cons_iff {c : Char} {s : List Char} :
    BeginsDashes (c :: s) ↔ c = '-' ∧ ∃ rest, s = '-' :: rest := by
  constructor
  · rintro ⟨rest, equal⟩
    obtain ⟨rfl, rfl⟩ := List.cons.inj equal
    exact ⟨rfl, rest, rfl⟩
  · rintro ⟨rfl, rest, rfl⟩
    exact ⟨rest, rfl⟩

theorem not_beginsDashes_of_ne {c : Char} (h : c ≠ '-') (s : List Char) :
    ¬ BeginsDashes (c :: s) := by
  rw [beginsDashes_cons_iff]
  intro dashes
  exact h dashes.1

theorem uncommented_cons_iff {c : Char} {s : List Char} :
    Uncommented (c :: s) ↔ ¬ BeginsDashes (c :: s) ∧ Uncommented s := by
  rw [Uncommented, List.infix_cons_iff, not_or]
  rfl

theorem Uncommented.of_infix {s t : List Char} (h : Uncommented t) (part : s <:+: t) :
    Uncommented s := by
  intro dashes
  exact h (dashes.trans part)

theorem uncommented_of_not_mem {s : List Char} (h : '-' ∉ s) : Uncommented s := by
  intro dashes
  exact h (dashes.subset List.mem_cons_self)

/-- A character that begins no two dashes begins none in front of another text, unless it is the
last one. -/
theorem not_beginsDashes_append {c : Char} {a : List Char} (h : ¬ BeginsDashes (c :: a))
    (last : (c :: a).getLast? ≠ some '-') (s : List Char) : ¬ BeginsDashes (c :: (a ++ s)) := by
  rw [beginsDashes_cons_iff] at h ⊢
  rintro ⟨rfl, rest, equal⟩
  cases a with
  | nil => exact last rfl
  | cons d a =>
    obtain ⟨rfl, -⟩ := List.cons.inj equal
    exact h ⟨rfl, a, rfl⟩

private theorem getLast?_tail {c : Char} {a : List Char} (h : (c :: a).getLast? ≠ some '-') :
    a.getLast? ≠ some '-' := by
  cases a with
  | nil => simp
  | cons d a => simpa using h

/-- No two dashes lie across a character that is no dash. -/
theorem uncommented_append_cons {a s : List Char} {c : Char} (ha : Uncommented a) (hc : c ≠ '-')
    (hs : Uncommented s) : Uncommented (a ++ c :: s) := by
  induction a with
  | nil =>
    refine uncommented_cons_iff.mpr ⟨?_, hs⟩
    intro dashes
    exact hc (beginsDashes_cons_iff.mp dashes).1
  | cons d a ih =>
    obtain ⟨first, tail⟩ := uncommented_cons_iff.mp ha
    refine uncommented_cons_iff.mpr ⟨?_, ih tail⟩
    rw [beginsDashes_cons_iff] at first ⊢
    rintro ⟨rfl, rest, equal⟩
    cases a with
    | nil => exact hc (List.cons.inj equal).1
    | cons e a =>
      obtain ⟨rfl, -⟩ := List.cons.inj equal
      exact first ⟨rfl, a, rfl⟩

/-! ### Long comments -/

theorem afterLong?_eq_none {s : List Char} (h : ∀ rest, s ≠ '-' :: '-' :: '[' :: rest) :
    afterLong? s = none := by
  have closed : longOpener? s = none := by
    unfold longOpener?
    split
    · next rest => exact absurd rfl (h rest)
    · rfl
  simp [afterLong?, closed]

theorem afterLong?_eq_none_of_not_beginsDashes {s : List Char} (h : ¬ BeginsDashes s) :
    afterLong? s = none := by
  apply afterLong?_eq_none
  rintro rest rfl
  exact h ⟨'[' :: rest, rfl⟩

theorem removeLong_cons {c : Char} {s : List Char} (h : ¬ BeginsDashes (c :: s)) :
    removeLong (c :: s) = c :: removeLong s :=
  removeLong_cons_of_none (afterLong?_eq_none_of_not_beginsDashes h)

theorem removeLong_append {a : List Char} (ha : Uncommented a) (last : a.getLast? ≠ some '-')
    (s : List Char) : removeLong (a ++ s) = a ++ removeLong s := by
  induction a with
  | nil => rfl
  | cons c a ih =>
    obtain ⟨first, tail⟩ := uncommented_cons_iff.mp ha
    rw [List.cons_append, removeLong_cons (not_beginsDashes_append first last s),
      ih tail (getLast?_tail last), List.cons_append]

/-! ### Ends of lines -/

/-- A line ends where the text goes on. -/
def EndsLine (s : List Char) : Prop :=
  s = [] ∨ ∃ rest, s = '\n' :: rest

private theorem decide_ne_of_not_mem {body : List Char} (oneLine : '\n' ∉ body) :
    ∀ c ∈ body, decide (c ≠ '\n') = true := by
  intro c hc
  exact decide_eq_true fun equal => oneLine (equal ▸ hc)

theorem takeWhile_append_of_endsLine {body after : List Char} (oneLine : '\n' ∉ body)
    (ends : EndsLine after) : (body ++ after).takeWhile (· ≠ '\n') = body := by
  rw [List.takeWhile_append_of_pos (decide_ne_of_not_mem oneLine)]
  rcases ends with rfl | ⟨rest, rfl⟩ <;> simp

theorem dropWhile_append_of_endsLine {body after : List Char} (oneLine : '\n' ∉ body)
    (ends : EndsLine after) : (body ++ after).dropWhile (· ≠ '\n') = after := by
  rw [List.dropWhile_append_of_pos (decide_ne_of_not_mem oneLine)]
  rcases ends with rfl | ⟨rest, rfl⟩ <;> simp

/-! ### Line comments -/

theorem removeLine_nil : removeLine [] = [] := by
  simp [removeLine]

theorem removeLine_dashes (s : List Char) :
    removeLine ('-' :: '-' :: s) = removeLine (s.dropWhile (· ≠ '\n')) := by
  rw [removeLine]

theorem removeLine_cons {c : Char} {s : List Char} (h : ¬ BeginsDashes (c :: s)) :
    removeLine (c :: s) = c :: removeLine s := by
  rw [removeLine]
  rintro rest rfl rfl
  exact h ⟨rest, rfl⟩

theorem removeLine_append {a : List Char} (ha : Uncommented a) (last : a.getLast? ≠ some '-')
    (s : List Char) : removeLine (a ++ s) = a ++ removeLine s := by
  induction a with
  | nil => rfl
  | cons c a ih =>
    obtain ⟨first, tail⟩ := uncommented_cons_iff.mp ha
    rw [List.cons_append, removeLine_cons (not_beginsDashes_append first last s),
      ih tail (getLast?_tail last), List.cons_append]

/-- A line comment is removed up to its line feed. -/
theorem removeLine_comment {body : List Char} (h : '\n' ∉ body) (s : List Char) :
    removeLine ('-' :: '-' :: (body ++ '\n' :: s)) = '\n' :: removeLine s := by
  have left : (body ++ '\n' :: s).dropWhile (· ≠ '\n') = '\n' :: s :=
    dropWhile_append_of_endsLine h (Or.inr ⟨s, rfl⟩)
  rw [removeLine_dashes, left, removeLine_cons (not_beginsDashes_of_ne (by decide) s)]

/-! ### What is left -/

/-- What is left without line comments begins with a dash only if the text does. -/
private theorem exists_of_removeLine_eq_dash_cons {s rest : List Char}
    (h : removeLine s = '-' :: rest) : ∃ tail, s = '-' :: tail := by
  cases s with
  | nil => simp [removeLine_nil] at h
  | cons c tail =>
    by_cases dashes : BeginsDashes (c :: tail)
    · exact ⟨tail, by rw [(beginsDashes_cons_iff.mp dashes).1]⟩
    · rw [removeLine_cons dashes] at h
      exact ⟨tail, by rw [(List.cons.inj h).1]⟩

theorem uncommented_removeLine (s : List Char) : Uncommented (removeLine s) := by
  fun_induction removeLine s with
  | case1 => simp [Uncommented]
  | case2 rest ih => exact ih
  | case3 c rest h ih =>
    refine uncommented_cons_iff.mpr ⟨?_, ih⟩
    rw [beginsDashes_cons_iff]
    rintro ⟨rfl, tail, left⟩
    obtain ⟨before, rfl⟩ := exists_of_removeLine_eq_dash_cons left
    exact h before rfl rfl

/-- What comments leave has no two dashes in a row. -/
theorem uncommented_stripChars (s : List Char) : Uncommented (stripChars s) :=
  uncommented_removeLine (removeLong s)

/-! ### Both removals -/

theorem stripChars_nil : stripChars [] = [] := by
  rw [stripChars, removeLong_nil, removeLine_nil]

theorem stripChars_append {a : List Char} (ha : Uncommented a) (last : a.getLast? ≠ some '-')
    (s : List Char) : stripChars (a ++ s) = a ++ stripChars s := by
  rw [stripChars, removeLong_append ha last, removeLine_append ha last, stripChars]

/-- An annotation, which begins with three dashes and an at sign, leaves an empty line. No long
comment begins with its dashes. -/
theorem stripChars_annotation {body : List Char} (dashes : '-' ∉ body) (oneLine : '\n' ∉ body)
    (s : List Char) :
    stripChars ('-' :: '-' :: '-' :: '@' :: (body ++ '\n' :: s)) = '\n' :: stripChars s := by
  have plain : '-' ∉ '@' :: (body ++ ['\n']) := by simp [dashes]
  have kept : removeLong ('@' :: (body ++ '\n' :: s)) = '@' :: (body ++ '\n' :: removeLong s) := by
    have last : ('@' :: (body ++ ['\n'])).getLast? ≠ some '-' := by
      intro equal
      exact plain (List.mem_of_getLast? equal)
    simpa using removeLong_append (uncommented_of_not_mem plain) last s
  have long : removeLong ('-' :: '-' :: '-' :: '@' :: (body ++ '\n' :: s)) =
      '-' :: '-' :: ('-' :: '@' :: body ++ '\n' :: removeLong s) := by
    rw [removeLong_cons_of_none (afterLong?_eq_none (by simp)),
      removeLong_cons_of_none (afterLong?_eq_none (by simp)),
      removeLong_cons (by simp [beginsDashes_cons_iff]), kept]
    rfl
  have body' : '\n' ∉ '-' :: '@' :: body := by simp [oneLine]
  rw [stripChars, long, removeLine_comment body', stripChars]

end LuaDecl.Comment
