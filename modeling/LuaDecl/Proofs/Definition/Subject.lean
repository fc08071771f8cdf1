import LuaDecl.Proofs.Definition.Scan

/-!
# Subjects

The text of a subject says all there is to know of it: a dot or a colon stands in it exactly once,
for the kind that has one, and cuts it into table and name (`Subject.unique`). No parenthesis stands
in it, so a definition is closed once (`Shape.exists_closed_of_fits`).
-/

namespace LuaDecl.Definition

open Text

theorem Identifier.word {s : List Char} (h : Identifier s) : Word s := by
  obtain ⟨⟨c, rest, rfl, -⟩, word⟩ := h
  exact ⟨List.cons_ne_nil c rest, word⟩

/-- A character that is no word character stands in no word. -/
theorem Word.not_mem {s : List Char} (h : Word s) {c : Char} (hc : isWord c = false) : c ∉ s := by
  intro member
  rw [h.2 c member] at hc
  cases hc

theorem Subject.dot_mem_iff {kind : Kind} {s name : List Char} {table : Option (List Char)}
    (h : Subject kind s table name) : '.' ∈ s ↔ kind = .dot := by
  have noDot {word : List Char} (hw : Word word) : '.' ∉ word := hw.not_mem (by decide)
  cases kind with
  | global =>
    obtain ⟨-, rfl, hi⟩ := h
    simp [noDot hi.word]
  | dot =>
    obtain ⟨t, -, rfl, -, -⟩ := h
    simp
  | colon =>
    obtain ⟨t, -, rfl, hi, hw⟩ := h
    simp [noDot hi.word, noDot hw]

theorem Subject.colon_mem_iff {kind : Kind} {s name : List Char} {table : Option (List Char)}
    (h : Subject kind s table name) : ':' ∈ s ↔ kind = .colon := by
  have noColon {word : List Char} (hw : Word word) : ':' ∉ word := hw.not_mem (by decide)
  cases kind with
  | global =>
    obtain ⟨-, rfl, hi⟩ := h
    simp [noColon hi.word]
  | dot =>
    obtain ⟨t, -, rfl, hi, hw⟩ := h
    simp [noColon hi.word, noColon hw]
  | colon =>
    obtain ⟨t, -, rfl, -, -⟩ := h
    simp

/-- The mark in a qualified name stands there once and ends the table. -/
theorem cut_table {mark : Char} {t name : List Char} (ht : mark ∉ t) (hn : mark ∉ name) :
    (t ++ mark :: name).takeWhile (· ≠ mark) = t ∧ (t ++ mark :: name).count mark = 1 := by
  have before : ∀ c ∈ t, (decide (c ≠ mark)) = true := by
    intro c member
    simp only [decide_eq_true_eq]
    rintro rfl
    exact ht member
  constructor
  · rw [List.takeWhile_append_of_pos before]
    simp
  · rw [List.count_append, List.count_cons_self, List.count_eq_zero.mpr ht,
      List.count_eq_zero.mpr hn]

theorem Subject.cut_dot {s name : List Char} {table : Option (List Char)}
    (h : Subject .dot s table name) :
    table = some (s.takeWhile (· ≠ '.')) ∧ s.count '.' = 1 := by
  obtain ⟨t, rfl, rfl, hi, hw⟩ := h
  obtain ⟨table, once⟩ := cut_table (hi.word.not_mem (c := '.') (by decide))
    (hw.not_mem (by decide))
  exact ⟨congrArg some table.symm, once⟩

theorem Subject.cut_colon {s name : List Char} {table : Option (List Char)}
    (h : Subject .colon s table name) :
    table = some (s.takeWhile (· ≠ ':')) ∧ s.count ':' = 1 := by
  obtain ⟨t, rfl, rfl, hi, hw⟩ := h
  obtain ⟨table, once⟩ := cut_table (hi.word.not_mem (c := ':') (by decide))
    (hw.not_mem (by decide))
  exact ⟨congrArg some table.symm, once⟩

/-- A subject holds word characters and its mark only. -/
theorem Subject.not_mem {kind : Kind} {s name : List Char} {table : Option (List Char)}
    (h : Subject kind s table name) {c : Char} (hc : isWord c = false) (hd : c ≠ '.')
    (hk : c ≠ ':') : c ∉ s := by
  cases kind with
  | global =>
    obtain ⟨-, rfl, hi⟩ := h
    exact hi.word.not_mem hc
  | dot | colon =>
    obtain ⟨t, -, rfl, hi, hw⟩ := h
    simp [hi.word.not_mem hc, hw.not_mem hc, hd, hk]

/-- A text is a subject in one way at most. -/
theorem Subject.unique {a b : Kind} {s name other : List Char} {table second : Option (List Char)}
    (ha : Subject a s table name) (hb : Subject b s second other) :
    a = b ∧ table = second ∧ name = other := by
  obtain rfl : a = b := by
    have dots := ha.dot_mem_iff.symm.trans hb.dot_mem_iff
    have colons := ha.colon_mem_iff.symm.trans hb.colon_mem_iff
    cases a <;> cases b <;> simp_all
  have endsWord : EndsWord [] := by
    intro c rest equal
    cases equal
  have read := (subject?_append ha endsWord).symm.trans (subject?_append hb endsWord)
  obtain ⟨pair, -⟩ := Prod.mk.inj (Option.some.inj read)
  obtain ⟨rfl, rfl⟩ := Prod.mk.inj pair
  exact ⟨rfl, rfl, rfl⟩

/-! ### Closing parentheses -/

theorem paren_not_mem_blanks {blanks : List Char} (h : Blanks blanks) : ')' ∉ blanks :=
  h.not_mem (by decide)

theorem paren_not_mem_subject {kind : Kind} {subject name : List Char} {table : Option (List Char)}
    (h : Subject kind subject table name) : ')' ∉ subject :=
  h.not_mem (by decide) (by decide) (by decide)

theorem exists_closed_of_statement {kind : Kind} {text : List Char} {c : Capture}
    (h : Statement kind text c) : ∃ front, text = front ++ [')'] ∧ ')' ∉ front := by
  obtain ⟨lead, gap, subject, trail, hl, hg, -, ht, hs, hp, rfl⟩ := h
  have noWord : ')' ∉ keyword := by decide
  refine ⟨lead ++ keyword ++ gap ++ subject ++ trail ++ '(' :: c.params, by simp, ?_⟩
  simp [paren_not_mem_blanks hl, paren_not_mem_blanks hg, paren_not_mem_blanks ht,
    paren_not_mem_subject hs, noWord, hp]

theorem exists_closed_of_assignment {kind : Kind} {text : List Char} {c : Capture}
    (h : Assignment kind text c) : ∃ front, text = front ++ [')'] ∧ ')' ∉ front := by
  obtain ⟨lead, subject, blanks, gap, trail, hl, hb, hg, ht, hs, hp, rfl⟩ := h
  have noWord : ')' ∉ keyword := by decide
  refine ⟨lead ++ subject ++ blanks ++ '=' :: gap ++ keyword ++ trail ++ '(' :: c.params,
    by simp, ?_⟩
  simp [paren_not_mem_blanks hl, paren_not_mem_blanks hb, paren_not_mem_blanks hg,
    paren_not_mem_blanks ht, paren_not_mem_subject hs, noWord, hp]

/-- A definition ends with its only closing parenthesis. -/
theorem Shape.exists_closed_of_fits {shape : Shape} {text : List Char} {c : Capture}
    (h : shape.Fits text c) : ∃ front, text = front ++ [')'] ∧ ')' ∉ front := by
  cases shape with
  | colonStatement | dotStatement | globalStatement => exact exists_closed_of_statement h
  | dotAssignment | globalAssignment => exact exists_closed_of_assignment h

/-- A scan takes a text up to its first closing parenthesis. -/
theorem Shape.exists_closed_of_scan? {shape : Shape} {s after : List Char} {c : Capture}
    (h : shape.scan? s = some (c, after)) : ∃ front, s = front ++ ')' :: after ∧ ')' ∉ front := by
  obtain ⟨text, rfl, fits⟩ := exists_of_scan? h
  obtain ⟨front, rfl, once⟩ := exists_closed_of_fits fits
  exact ⟨front, by simp, once⟩

end LuaDecl.Definition
