import LuaDecl.Proofs.Extraction.LocalGuard
import LuaDecl.Proofs.Stub.Layout

/-!
# The lines of a stub file

What a stub file holds besides comments: for each table a line that assigns it to itself, and for
each function a line that declares it. No shape fits from the start of the first, also where the
table is called `function`; from the start of the second fits the statement of the kind of
function, and no other shape. Neither line ends with `local`, unless the table does.
-/

namespace LuaDecl.Stub

open Comment Definition Extraction Text

/-- The line that assigns a table to itself. -/
def selfAssignment (table : List Char) : List Char :=
  table ++ ' ' :: '=' :: ' ' :: table

/-- The line that declares a function. -/
def declaration (s : Signature) : List Char :=
  keyword ++ ' ' :: (s.key.toList ++ '(' :: (s.params.toList ++ [')', ' ', 'e', 'n', 'd']))

/-- The shape of a declared function. -/
def statementShape : Kind → Shape
  | .global => .globalStatement
  | .dot => .dotStatement
  | .colon => .colonStatement

/-- What the shape of a declared function captures. -/
def captureOf (s : Signature) : Capture :=
  ⟨s.table.map String.toList, s.name.toList, s.params.toList⟩

/-- Up to blanks, no parenthesis opens the text. -/
def Unopened (s : List Char) : Prop :=
  ∀ rest, trimStart s ≠ '(' :: rest

/-! ### Tables -/

theorem endsWord_space (s : List Char) : EndsWord (' ' :: s) :=
  endsWord_cons (by decide) s

theorem trimStart_space (s : List Char) : trimStart (' ' :: s) = trimStart s := by
  simp [trimStart, show isBlank ' ' = true by decide]

theorem trimStart_lineFeed (s : List Char) : trimStart ('\n' :: s) = trimStart s := by
  simp [trimStart, show isBlank '\n' = true by decide]

/-- A self-assignment begins no statement: if its table is the keyword, an equal sign stands where
the subject should. -/
theorem not_statement_selfAssignment {kind : Kind} {table text rest after : List Char} {c : Capture}
    (h : Identifier table) (fits : Statement kind text c)
    (same : selfAssignment table ++ after = text ++ rest) : False := by
  obtain ⟨lead, gap, subject, trail, hl, hg, hne, -, hs, -, rfl⟩ := fits
  simp only [selfAssignment, List.append_assoc, List.cons_append] at same
  have words := congrArg trimStart same
  rw [trimStart_identifier_append h, trimStart_blanks_append hl, trimStart_keyword_append] at words
  obtain ⟨-, blanks⟩ := eq_of_identifier_append h identifier_keyword (endsWord_space _)
    (endsWord_gap_append hg hne _) words
  have marks := congrArg trimStart blanks
  rw [trimStart_space, trimStart_of_not_isBlank (by decide), trimStart_blanks_append hg,
    trimStart_subject_append hs] at marks
  exact hs.append_ne_cons (by decide) _ _ marks.symm

/-- A self-assignment begins no other assignment, as long as no parenthesis opens behind it. -/
theorem not_assignment_selfAssignment {kind : Kind} {table text rest after : List Char}
    {c : Capture} (h : Identifier table) (unopened : Unopened after)
    (fits : Assignment kind text c) (same : selfAssignment table ++ '\n' :: after = text ++ rest) :
    False := by
  obtain ⟨lead, subject, before, gap, trail, hl, hb, hg, ht, hs, -, rfl⟩ := fits
  simp only [selfAssignment, List.append_assoc, List.cons_append] at same
  have words := congrArg trimStart same
  rw [trimStart_identifier_append h, trimStart_blanks_append hl, trimStart_subject_append hs]
    at words
  cases kind with
  | dot | colon =>
    obtain ⟨t, -, rfl, hi, -⟩ := hs
    rw [List.append_assoc] at words
    obtain ⟨-, marks⟩ :=
      eq_of_identifier_append h hi (endsWord_space _) (endsWord_cons (by decide) _) words
    exact absurd (List.cons.inj marks).1 (by decide)
  | global =>
    obtain ⟨-, rfl, hi⟩ := hs
    obtain ⟨-, blanks⟩ := eq_of_identifier_append h hi (endsWord_space _)
      (endsWord_blanks_append hb (endsWord_cons (by decide) _)) words
    have marks := congrArg trimStart blanks
    rw [trimStart_space, trimStart_blanks_append hb, trimStart_of_not_isBlank (by decide),
      trimStart_of_not_isBlank (by decide)] at marks
    -- The value is the keyword only if the table is called so, and then the line ends with it.
    have values := congrArg trimStart (List.cons.inj marks).2
    rw [trimStart_space, trimStart_identifier_append h, trimStart_blanks_append hg,
      trimStart_keyword_append] at values
    obtain ⟨-, ends⟩ := eq_of_identifier_append h identifier_keyword (endsWord_cons (by decide) _)
      (endsWord_blanks_paren ht _) values
    have opens := congrArg trimStart ends
    rw [trimStart_blanks_paren ht] at opens
    rw [trimStart_lineFeed] at opens
    exact unopened _ opens

theorem scan?_selfAssignment {table after : List Char} (h : Identifier table)
    (unopened : Unopened after) (shape : Shape) :
    shape.scan? (selfAssignment table ++ '\n' :: after) = none := by
  cases found : shape.scan? (selfAssignment table ++ '\n' :: after) with
  | none => rfl
  | some result =>
    obtain ⟨c, rest⟩ := result
    obtain ⟨text, same, fits⟩ := Shape.exists_of_scan? found
    cases shape with
    | colonStatement | dotStatement | globalStatement =>
      exact (not_statement_selfAssignment h fits same).elim
    | dotAssignment | globalAssignment =>
      exact (not_assignment_selfAssignment h unopened fits same).elim

theorem unopened_append {s : List Char} (h : Identifier s) (after : List Char) :
    Unopened (s ++ after) := by
  intro rest opens
  rw [trimStart_identifier_append h] at opens
  exact h.append_ne_cons (by decide) after rest opens

/-- The lines of tables, each behind the empty line that its annotation leaves. -/
def tableLinesOf (tables : List String) : List (List Char) :=
  tables.flatMap fun t => [[], selfAssignment t.toList]

@[simp]
theorem tableLinesOf_cons (t : String) (tables : List String) :
    tableLinesOf (t :: tables) = [] :: selfAssignment t.toList :: tableLinesOf tables := rfl

theorem unopened_tableLinesOf {tables : List String} (h : ∀ t ∈ tables, Identifier t.toList)
    {after : List Char} (unopened : Unopened after) :
    Unopened (unlines (tableLinesOf tables) ++ after) := by
  cases tables with
  | nil => exact unopened
  | cons t tables =>
    intro rest opens
    rw [tableLinesOf_cons, unlines_cons, unlines_cons] at opens
    simp only [List.nil_append, List.cons_append, trimStart_lineFeed, selfAssignment,
      List.append_assoc] at opens
    exact unopened_append (h t List.mem_cons_self) _ rest opens

/-- The lines of tables give nothing. -/
theorem captures_tableLinesOf {tables : List String} (h : ∀ t ∈ tables, Identifier t.toList)
    {after : List Char} (unopened : Unopened after) (shape : Shape) :
    shape.captures true (unlines (tableLinesOf tables) ++ after) = shape.captures true after := by
  induction tables with
  | nil => rfl
  | cons t tables ih =>
    obtain ⟨first, others⟩ := List.forall_mem_cons.mp h
    have oneLine : '\n' ∉ selfAssignment t.toList := by
      have word : '\n' ∉ t.toList := first.word.not_mem (by decide)
      simp [selfAssignment, word]
    have fails := scan?_selfAssignment first (unopened_tableLinesOf others unopened) shape
    simp only [tableLinesOf_cons, unlines_cons, List.append_assoc, List.cons_append,
      List.nil_append]
    rw [Shape.captures_emptyLine, Shape.captures_line oneLine fails, ih others]

/-! ### Functions -/

theorem fits_declaration {s : Signature} (h : s.WellFormed) :
    (statementShape s.kind).Fits
      (keyword ++ ' ' :: (s.key.toList ++ '(' :: (s.params.toList ++ [')']))) (captureOf s) := by
  have space : Blanks [' '] := by
    intro c hc
    rw [List.mem_singleton.mp hc]
    decide
  have statement : Statement s.kind
      (keyword ++ ' ' :: (s.key.toList ++ '(' :: (s.params.toList ++ [')']))) (captureOf s) :=
    ⟨[], [' '], s.key.toList, [], by simp [Blanks], space, by simp, by simp [Blanks], h.subject,
      h.closed, by simp [captureOf]⟩
  cases kind : s.kind <;> rw [kind] at statement <;> exact statement

/-- A declaration begins with its own shape, which leaves nothing but `end`, and with no other. -/
theorem scan?_declaration {s : Signature} (h : s.WellFormed) (after : List Char) (shape : Shape) :
    shape.scan? (declaration s ++ after) =
      if statementShape s.kind = shape then some (captureOf s, ' ' :: 'e' :: 'n' :: 'd' :: after)
      else none := by
  have own := Shape.scan?_append_of_fits (fits_declaration h) (' ' :: 'e' :: 'n' :: 'd' :: after)
  have split : declaration s ++ after =
      keyword ++ ' ' :: (s.key.toList ++ '(' :: (s.params.toList ++ [')'])) ++
        ' ' :: 'e' :: 'n' :: 'd' :: after := by
    simp [declaration]
  rw [← split] at own
  by_cases same : statementShape s.kind = shape
  · rw [if_pos same, ← same, own]
  · rw [if_neg same]
    cases found : shape.scan? (declaration s ++ after) with
    | none => rfl
    | some result => exact absurd (Shape.eq_of_scan? own found) same

theorem lineFeed_not_mem_declaration {s : Signature} (h : s.WellFormed)
    (oneLine : '\n' ∉ s.params.toList) : '\n' ∉ declaration s := by
  have key : '\n' ∉ s.key.toList := h.subject.not_mem (by decide) (by decide) (by decide)
  have word : '\n' ∉ keyword := by decide
  simp [declaration, key, oneLine, word]

/-- Each declaration gives its shape what it declares, and the other shapes nothing. -/
theorem captures_declarations {kept : List Signature} (h : ∀ s ∈ kept, s.WellFormed)
    (oneLine : ∀ s ∈ kept, '\n' ∉ s.params.toList) (shape : Shape) :
    shape.captures true (unlines (kept.map declaration)) =
      (kept.filter fun s => statementShape s.kind = shape).map captureOf := by
  induction kept with
  | nil => simp [Shape.captures, Shape.hitsFrom]
  | cons s kept ih =>
    obtain ⟨wf, others⟩ := List.forall_mem_cons.mp h
    obtain ⟨single, singles⟩ := List.forall_mem_cons.mp oneLine
    have scanned := scan?_declaration wf ('\n' :: unlines (kept.map declaration)) shape
    rw [List.map_cons, unlines_cons]
    by_cases same : statementShape s.kind = shape
    · rw [if_pos same] at scanned
      have tail : '\n' ∉ [' ', 'e', 'n', 'd'] := by decide
      have skipped := Shape.captures_false_append shape tail (unlines (kept.map declaration))
      rw [List.filter_cons_of_pos (by simpa using same), List.map_cons,
        Shape.captures_of_scan? scanned, ← ih others singles, ← skipped]
      rfl
    · rw [if_neg same] at scanned
      rw [List.filter_cons_of_neg (by simpa using same),
        Shape.captures_line (lineFeed_not_mem_declaration wf single) scanned, ih others singles]

/-! ### Lines that hide nothing -/

/-- Behind a table that does not end with `local` nothing is hidden. -/
theorem not_endsLocal_selfAssignment {table : List Char} (h : Identifier table)
    (visible : ¬ localKeyword <:+ table) (before : List Char) :
    ¬ EndsLocal (before ++ selfAssignment table) := by
  rcases List.eq_nil_or_concat table with rfl | ⟨front, last, concat⟩
  · exact absurd rfl h.word.1
  have tail : table = front ++ [last] := concat.trans List.concat_eq_append
  have blank : isBlank last = false := by
    refine isBlank_eq_false_of_isWord (h.2 last ?_)
    simp [tail]
  have whole : before ++ selfAssignment table =
      before ++ (table ++ ' ' :: '=' :: ' ' :: front) ++ [last] := by
    calc before ++ selfAssignment table
        = before ++ (table ++ ' ' :: '=' :: ' ' :: (front ++ [last])) := by rw [← tail]; rfl
      _ = before ++ (table ++ ' ' :: '=' :: ' ' :: front) ++ [last] := by simp
  apply not_endsLocal_of_not_suffix whole blank
  intro suffix
  -- The keyword holds no blank, so it would have to lie in the second copy of the table.
  have space : ' ' ∉ localKeyword := by decide
  have word : ' ' :: table <:+ before ++ selfAssignment table :=
    ⟨before ++ (table ++ [' ', '=']), by simp [selfAssignment]⟩
  rcases List.suffix_or_suffix_of_suffix suffix word with short | long
  · rcases List.suffix_cons_iff.mp short with equal | suffix
    · exact space (equal ▸ List.mem_cons_self)
    · exact visible suffix
  · exact space (long.subset List.mem_cons_self)

theorem publicLine_selfAssignment {table : List Char} (h : Identifier table)
    (visible : ¬ localKeyword <:+ table) : PublicLine (selfAssignment table) where
  oneLine := by
    have word : '\n' ∉ table := h.word.not_mem (by decide)
    simp [selfAssignment, word]
  keeps := fun before _ => not_endsLocal_selfAssignment h visible before

/-- A declaration ends with `end`. -/
theorem not_endsLocal_declaration (s : Signature) (before : List Char) :
    ¬ EndsLocal (before ++ declaration s) := by
  have whole : before ++ declaration s = before ++ (keyword ++ ' ' ::
      (s.key.toList ++ '(' :: (s.params.toList ++ [')', ' ', 'e', 'n']))) ++ ['d'] := by
    simp [declaration]
  apply not_endsLocal_of_not_suffix whole (by decide)
  intro suffix
  rw [whole] at suffix
  obtain ⟨rest, equal⟩ := suffix
  have lasts := congrArg List.getLast? equal
  rw [List.getLast?_concat] at lasts
  simp [localKeyword] at lasts

theorem publicLine_declaration {s : Signature} (h : s.WellFormed)
    (oneLine : '\n' ∉ s.params.toList) : PublicLine (declaration s) where
  oneLine := lineFeed_not_mem_declaration h oneLine
  keeps := fun before _ => not_endsLocal_declaration s before

end LuaDecl.Stub
