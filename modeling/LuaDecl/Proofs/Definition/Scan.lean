import LuaDecl.Definition.Fits

/-!
# Scans take every fit

The other direction of `Shape.exists_of_scan?`: where a text begins with something that fits a
shape, the scan succeeds and takes exactly that, whatever follows. Each step of a scan takes all
the blanks or word characters there are, and the next part of a fit begins with a character of
neither kind, so a fit is never cut in another way. Main statements: `Shape.scan?_append_of_fits`
and, since a scan has one result, `Shape.fits_unique`; no text is the beginning of two different
shapes (`Shape.eq_of_scan?`).
-/

namespace LuaDecl.Definition

open Text

/-! ### Where blanks and words end -/

theorem blanks_append_iff {a b : List Char} : Blanks (a ++ b) ↔ Blanks a ∧ Blanks b :=
  List.forall_mem_append

theorem blanks_lineFeed : Blanks ['\n'] := by
  intro c member
  rw [List.mem_singleton.mp member]
  decide

/-- A character that is no blank stands in no blanks. -/
theorem Blanks.not_mem {blanks : List Char} (h : Blanks blanks) {c : Char}
    (hc : isBlank c = false) : c ∉ blanks := by
  intro member
  rw [h c member] at hc
  cases hc

/-- No word goes on at the front of the text. -/
def EndsWord (s : List Char) : Prop :=
  ∀ c rest, s = c :: rest → isWord c = false

theorem endsWord_cons {c : Char} (h : isWord c = false) (s : List Char) : EndsWord (c :: s) := by
  intro d rest equal
  obtain ⟨rfl, -⟩ := List.cons.inj equal
  exact h

theorem endsWord_blanks_append {blanks s : List Char} (hb : Blanks blanks) (hs : EndsWord s) :
    EndsWord (blanks ++ s) := by
  cases blanks with
  | nil => exact hs
  | cons c rest => exact endsWord_cons (isWord_eq_false_of_isBlank (hb c List.mem_cons_self)) _

theorem endsWord_gap_append {gap : List Char} (hg : Blanks gap) (hne : gap ≠ [])
    (s : List Char) : EndsWord (gap ++ s) := by
  cases gap with
  | nil => exact absurd rfl hne
  | cons c rest => exact endsWord_cons (isWord_eq_false_of_isBlank (hg c List.mem_cons_self)) _

theorem takeWhile_isWord_append {word s : List Char} (hw : ∀ c ∈ word, isWord c = true)
    (hs : EndsWord s) : (word ++ s).takeWhile isWord = word := by
  rw [List.takeWhile_append_of_pos hw]
  cases s with
  | nil => simp
  | cons c rest => simp [hs c rest rfl]

theorem dropWhile_isWord_append {word s : List Char} (hw : ∀ c ∈ word, isWord c = true)
    (hs : EndsWord s) : (word ++ s).dropWhile isWord = s := by
  rw [List.dropWhile_append_of_pos hw]
  cases s with
  | nil => simp
  | cons c rest => simp [hs c rest rfl]

theorem trimStart_blanks_append {blanks : List Char} (h : Blanks blanks) (s : List Char) :
    trimStart (blanks ++ s) = trimStart s :=
  List.dropWhile_append_of_pos h

theorem isBlank_eq_false_of_isWord {c : Char} (h : isWord c = true) : isBlank c = false := by
  cases hb : isBlank c with
  | false => rfl
  | true => simp [isWord_eq_false_of_isBlank hb] at h

theorem trimStart_identifier_append {name : List Char} (h : Identifier name) (s : List Char) :
    trimStart (name ++ s) = name ++ s := by
  obtain ⟨c, rest, rfl, hc⟩ := h.1
  exact trimStart_of_not_isBlank (isBlank_eq_false_of_isWord (isWord_of_isIdentifierStart hc))

/-! ### The steps of a scan -/

theorem blanks?_append {gap : List Char} (hg : Blanks gap) (hne : gap ≠ []) (s : List Char) :
    blanks? (gap ++ s) = some (trimStart s) := by
  cases gap with
  | nil => exact absurd rfl hne
  | cons c rest =>
    have tail : Blanks rest := by
      intro d hd
      exact hg d (List.mem_cons_of_mem c hd)
    simp [blanks?, hg c List.mem_cons_self, trimStart_blanks_append tail]

theorem identifier?_append {name s : List Char} (h : Identifier name) (hs : EndsWord s) :
    identifier? (name ++ s) = some (name, s) := by
  obtain ⟨⟨c, rest, rfl, hc⟩, word⟩ := h
  have tail : ∀ d ∈ rest, isWord d = true := by
    intro d hd
    exact word d (List.mem_cons_of_mem c hd)
  simp [identifier?, hc, takeWhile_isWord_append tail hs, dropWhile_isWord_append tail hs]

/-- No other character stands at the front of an identifier. -/
theorem Identifier.append_ne_cons {name : List Char} (h : Identifier name) {c : Char}
    (hc : isIdentifierStart c = false) (s rest : List Char) : name ++ s ≠ c :: rest := by
  obtain ⟨⟨d, word, rfl, hd⟩, -⟩ := h
  intro same
  obtain ⟨rfl, -⟩ := List.cons.inj same
  rw [hc] at hd
  cases hd

/-- A text begins with one identifier at most that no word character follows. -/
theorem eq_of_identifier_append {a b s t : List Char} (ha : Identifier a) (hb : Identifier b)
    (hs : EndsWord s) (ht : EndsWord t) (same : a ++ s = b ++ t) : a = b ∧ s = t := by
  have first := identifier?_append ha hs
  rw [same, identifier?_append hb ht] at first
  obtain ⟨rfl, rfl⟩ := Prod.mk.inj (Option.some.inj first)
  exact ⟨rfl, rfl⟩

theorem word?_append {name s : List Char} (h : Word name) (hs : EndsWord s) :
    word? (name ++ s) = some (name, s) := by
  cases name with
  | nil => exact absurd rfl h.1
  | cons c rest =>
    have tail : ∀ d ∈ rest, isWord d = true := by
      intro d hd
      exact h.2 d (List.mem_cons_of_mem c hd)
    simp [word?, h.2 c List.mem_cons_self, takeWhile_isWord_append tail hs,
      dropWhile_isWord_append tail hs]

theorem parenthesized?_append {params : List Char} (h : ')' ∉ params) (s : List Char) :
    parenthesized? ('(' :: (params ++ ')' :: s)) = some (params, s) := by
  have inside : ∀ c ∈ params, decide (c ≠ ')') = true := by
    intro c hc
    exact decide_eq_true fun equal => h (equal ▸ hc)
  have taken : (params ++ ')' :: s).takeWhile (· ≠ ')') = params := by
    rw [List.takeWhile_append_of_pos inside]
    simp
  have left : (params ++ ')' :: s).dropWhile (· ≠ ')') = ')' :: s := by
    rw [List.dropWhile_append_of_pos inside]
    simp
  simp only [parenthesized?, taken, left]

/-- A subject begins with an identifier. -/
theorem exists_identifier_of_subject {kind : Kind} {s name : List Char}
    {table : Option (List Char)} (h : Subject kind s table name) :
    ∃ first rest, s = first ++ rest ∧ Identifier first := by
  cases kind with
  | global => exact ⟨name, [], by simpa using h.2.1, h.2.2⟩
  | dot | colon =>
    obtain ⟨t, -, equal, hi, -⟩ := h
    exact ⟨t, _, equal, hi⟩

theorem trimStart_subject_append {kind : Kind} {s name : List Char} {table : Option (List Char)}
    (h : Subject kind s table name) (rest : List Char) : trimStart (s ++ rest) = s ++ rest := by
  obtain ⟨first, tail, rfl, hi⟩ := exists_identifier_of_subject h
  rw [List.append_assoc, trimStart_identifier_append hi]

theorem Subject.append_ne_cons {kind : Kind} {subject name : List Char}
    {table : Option (List Char)} (h : Subject kind subject table name) {c : Char}
    (hc : isIdentifierStart c = false) (s rest : List Char) : subject ++ s ≠ c :: rest := by
  obtain ⟨first, tail, rfl, hi⟩ := exists_identifier_of_subject h
  rw [List.append_assoc]
  exact hi.append_ne_cons hc _ rest

theorem subject?_append {kind : Kind} {subject name s : List Char} {table : Option (List Char)}
    (h : Subject kind subject table name) (hs : EndsWord s) :
    subject? kind (subject ++ s) = some ((table, name), s) := by
  cases kind with
  | global =>
    obtain ⟨rfl, rfl, hi⟩ := h
    simp [subject?, identifier?_append hi hs]
  | dot =>
    obtain ⟨t, rfl, rfl, hi, hw⟩ := h
    have dot : EndsWord ('.' :: (name ++ s)) := endsWord_cons (by decide) _
    simp [subject?, identifier?_append hi dot, after?, word?_append hw hs]
  | colon =>
    obtain ⟨t, rfl, rfl, hi, hw⟩ := h
    have colon : EndsWord (':' :: (name ++ s)) := endsWord_cons (by decide) _
    simp [subject?, identifier?_append hi colon, after?, word?_append hw hs]

theorem after?_append (mark s : List Char) : after? mark (mark ++ s) = some s :=
  after?_eq_some_iff.mpr rfl

theorem identifier_keyword : Identifier keyword := by
  have word : keyword.all isWord = true := by decide
  exact ⟨⟨'f', _, rfl, by decide⟩, List.all_eq_true.mp word⟩

theorem trimStart_keyword_append (s : List Char) : trimStart (keyword ++ s) = keyword ++ s :=
  trimStart_of_not_isBlank (by decide)

theorem endsWord_blanks_paren {trail : List Char} (h : Blanks trail) (s : List Char) :
    EndsWord (trail ++ '(' :: s) :=
  endsWord_blanks_append h (endsWord_cons (by decide) s)

theorem trimStart_blanks_paren {trail : List Char} (h : Blanks trail) (s : List Char) :
    trimStart (trail ++ '(' :: s) = '(' :: s := by
  rw [trimStart_blanks_append h, trimStart_of_not_isBlank (by decide)]

theorem statement?_append {kind : Kind} {text : List Char} {c : Capture}
    (h : Statement kind text c) (rest : List Char) :
    statement? kind (text ++ rest) = some (c, rest) := by
  obtain ⟨lead, gap, subject, trail, hl, hg, hne, ht, hs, hp, rfl⟩ := h
  have shape : lead ++ keyword ++ gap ++ subject ++ trail ++ '(' :: (c.params ++ [')']) ++ rest =
      lead ++ (keyword ++ (gap ++ (subject ++ (trail ++ '(' :: (c.params ++ ')' :: rest))))) := by
    simp
  rw [shape]
  simp only [statement?, Option.bind_eq_bind, trimStart_blanks_append hl, trimStart_keyword_append,
    after?_append, Option.bind_some, blanks?_append hg hne, trimStart_subject_append hs,
    subject?_append hs (endsWord_blanks_paren ht _), trimStart_blanks_paren ht,
    parenthesized?_append hp, Option.pure_def]

theorem assignment?_append {kind : Kind} {text : List Char} {c : Capture}
    (h : Assignment kind text c) (rest : List Char) :
    assignment? kind (text ++ rest) = some (c, rest) := by
  obtain ⟨lead, subject, before, after, trail, hl, hb, ha, ht, hs, hp, rfl⟩ := h
  have shape : lead ++ subject ++ before ++ '=' :: after ++ keyword ++ trail ++
        '(' :: (c.params ++ [')']) ++ rest =
      lead ++ (subject ++ (before ++ '=' :: (after ++
        (keyword ++ (trail ++ '(' :: (c.params ++ ')' :: rest)))))) := by
    simp
  have equals (s : List Char) : EndsWord (before ++ '=' :: s) :=
    endsWord_blanks_append hb (endsWord_cons (by decide) s)
  have sign (s : List Char) : after? ['='] (trimStart (before ++ '=' :: s)) = some s := by
    rw [trimStart_blanks_append hb, trimStart_of_not_isBlank (by decide)]
    exact after?_append ['='] s
  rw [shape]
  simp only [assignment?, Option.bind_eq_bind, trimStart_blanks_append hl,
    trimStart_subject_append hs, subject?_append hs (equals _), Option.bind_some, sign,
    trimStart_blanks_append ha, trimStart_keyword_append, after?_append, trimStart_blanks_paren ht,
    parenthesized?_append hp, Option.pure_def]

/-- A scan of a text that begins with a fit takes exactly that fit. -/
theorem Shape.scan?_append_of_fits {shape : Shape} {text : List Char} {c : Capture}
    (h : shape.Fits text c) (rest : List Char) : shape.scan? (text ++ rest) = some (c, rest) := by
  cases shape with
  | colonStatement | dotStatement | globalStatement => exact statement?_append h rest
  | dotAssignment | globalAssignment => exact assignment?_append h rest

/-- A scan succeeds exactly on the texts that begin with a fit. -/
theorem Shape.scan?_eq_some_iff {shape : Shape} {s rest : List Char} {c : Capture} :
    shape.scan? s = some (c, rest) ↔ ∃ text, s = text ++ rest ∧ shape.Fits text c := by
  constructor
  · exact exists_of_scan?
  · rintro ⟨text, rfl, hf⟩
    exact scan?_append_of_fits hf rest

/-- A text begins with one fit of a shape at most. -/
theorem Shape.fits_unique {shape : Shape} {a b restA restB : List Char} {c d : Capture}
    (ha : shape.Fits a c) (hb : shape.Fits b d) (same : a ++ restA = b ++ restB) :
    a = b ∧ c = d := by
  have scanA := scan?_append_of_fits ha restA
  have scanB := scan?_append_of_fits hb restB
  rw [same, scanB] at scanA
  obtain ⟨rfl, rfl⟩ := Prod.mk.inj (Option.some.inj scanA)
  exact ⟨List.append_cancel_right same, rfl⟩

/-! ### One shape at most -/

/-- What follows the first identifier of a subject of the given kind. -/
private def FollowsFirst (kind : Kind) (s : List Char) : Prop :=
  match kind with
  | .global => ∃ rest, trimStart s = '(' :: rest ∨ trimStart s = '=' :: rest
  | .dot => ∃ rest, s = '.' :: rest
  | .colon => ∃ rest, s = ':' :: rest

private theorem FollowsFirst.unique {a b : Kind} {s : List Char} (ha : FollowsFirst a s)
    (hb : FollowsFirst b s) : a = b := by
  have dot (rest : List Char) : trimStart ('.' :: rest) = '.' :: rest :=
    trimStart_of_not_isBlank (by decide)
  have colon (rest : List Char) : trimStart (':' :: rest) = ':' :: rest :=
    trimStart_of_not_isBlank (by decide)
  cases a <;> cases b <;> simp only [FollowsFirst] at ha hb <;>
    obtain ⟨t, ha⟩ := ha <;> obtain ⟨u, hb⟩ := hb <;> simp_all

private theorem exists_of_subject? {kind : Kind} {s rest t : List Char}
    {x : Option (List Char) × List Char} (h : subject? kind s = some (x, rest))
    (ht : trimStart rest = '(' :: t ∨ trimStart rest = '=' :: t) :
    ∃ first follow, identifier? s = some (first, follow) ∧ FollowsFirst kind follow := by
  simp only [subject?, Option.bind_eq_bind, Option.bind_eq_some_iff] at h
  obtain ⟨⟨first, follow⟩, hi, h⟩ := h
  refine ⟨first, follow, hi, ?_⟩
  cases kind with
  | global =>
    obtain ⟨-, rfl⟩ := Prod.mk.inj (Option.some.inj h)
    exact ⟨t, ht⟩
  | dot | colon =>
    simp only [Option.bind_eq_some_iff] at h
    obtain ⟨tail, hm, -⟩ := h
    exact ⟨tail, after?_eq_some_iff.mp hm⟩

private theorem exists_of_parenthesized? {s : List Char} {x : List Char × List Char}
    (h : parenthesized? s = some x) : ∃ rest, s = '(' :: rest :=
  ⟨_, (append_of_parenthesized? h).1⟩

private theorem subject_of_statement? {kind : Kind} {s : List Char} {x : Capture × List Char}
    (h : statement? kind s = some x) :
    ∃ afterKeyword afterGap first follow, trimStart s = keyword ++ afterKeyword ∧
      blanks? afterKeyword = some afterGap ∧ identifier? afterGap = some (first, follow) ∧
      FollowsFirst kind follow := by
  simp only [statement?, Option.bind_eq_bind, Option.bind_eq_some_iff] at h
  obtain ⟨afterKeyword, hk, afterGap, hg, ⟨_, s₃⟩, hs, ⟨_, _⟩, hp, -⟩ := h
  obtain ⟨t, ht⟩ := exists_of_parenthesized? hp
  obtain ⟨first, follow, hi, hf⟩ := exists_of_subject? hs (Or.inl ht)
  exact ⟨afterKeyword, afterGap, first, follow, after?_eq_some_iff.mp hk, hg, hi, hf⟩

private theorem subject_of_assignment? {kind : Kind} {s : List Char} {x : Capture × List Char}
    (h : assignment? kind s = some x) :
    ∃ first follow, identifier? (trimStart s) = some (first, follow) ∧
      FollowsFirst kind follow := by
  simp only [assignment?, Option.bind_eq_bind, Option.bind_eq_some_iff] at h
  obtain ⟨⟨_, s₁⟩, hs, s₂, he, -⟩ := h
  exact exists_of_subject? hs (Or.inr (after?_eq_some_iff.mp he))

private theorem statement?_kind_unique {a b : Kind} {s : List Char} {x y : Capture × List Char}
    (ha : statement? a s = some x) (hb : statement? b s = some y) : a = b := by
  obtain ⟨r₁, r₂, first, follow, hk, hg, hi, hf⟩ := subject_of_statement? ha
  obtain ⟨r₁', r₂', first', follow', hk', hg', hi', hf'⟩ := subject_of_statement? hb
  obtain rfl : r₁ = r₁' := List.append_cancel_left (hk.symm.trans hk')
  obtain rfl : r₂ = r₂' := Option.some.inj (hg.symm.trans hg')
  obtain ⟨rfl, rfl⟩ := Prod.mk.inj (Option.some.inj (hi.symm.trans hi'))
  exact hf.unique hf'

private theorem assignment?_kind_unique {a b : Kind} {s : List Char} {x y : Capture × List Char}
    (ha : assignment? a s = some x) (hb : assignment? b s = some y) : a = b := by
  obtain ⟨first, follow, hi, hf⟩ := subject_of_assignment? ha
  obtain ⟨first', follow', hi', hf'⟩ := subject_of_assignment? hb
  obtain ⟨rfl, rfl⟩ := Prod.mk.inj (Option.some.inj (hi.symm.trans hi'))
  exact hf.unique hf'

/-- A statement is no assignment to `function`: after its keyword comes a blank and then an
identifier, and after the first identifier of an assignment a dot, a colon or an equal sign. -/
private theorem not_statement_of_assignment {a b : Kind} {text other restA restB : List Char}
    {c d : Capture} (hs : Statement a text c) (ha : Assignment b other d)
    (same : text ++ restA = other ++ restB) : False := by
  obtain ⟨lead, gap, subject, trail, hl, hg, hne, -, hsub, -, rfl⟩ := hs
  obtain ⟨lead', target, before, after, trail', hl', hb, -, -, htarget, -, rfl⟩ := ha
  simp only [List.append_assoc, List.cons_append] at same
  have words := congrArg trimStart same
  rw [trimStart_blanks_append hl, trimStart_keyword_append, trimStart_blanks_append hl',
    trimStart_subject_append htarget] at words
  have ends (s : List Char) : EndsWord (gap ++ s) := endsWord_gap_append hg hne s
  cases b with
  | global =>
    obtain ⟨-, rfl, hi⟩ := htarget
    obtain ⟨-, blanks⟩ := eq_of_identifier_append identifier_keyword hi (ends _)
      (endsWord_blanks_append hb (endsWord_cons (by decide) _)) words
    have marks := congrArg trimStart blanks
    rw [trimStart_blanks_append hg, trimStart_subject_append hsub, trimStart_blanks_append hb,
      trimStart_of_not_isBlank (by decide)] at marks
    exact hsub.append_ne_cons (by decide) _ _ marks
  | dot | colon =>
    obtain ⟨t, -, rfl, hi, -⟩ := htarget
    rw [List.append_assoc, List.cons_append] at words
    obtain ⟨-, blanks⟩ := eq_of_identifier_append identifier_keyword hi (ends _)
      (endsWord_cons (by decide) _) words
    have marks := congrArg trimStart blanks
    rw [trimStart_blanks_append hg, trimStart_subject_append hsub,
      trimStart_of_not_isBlank (by decide)] at marks
    exact hsub.append_ne_cons (by decide) _ _ marks

private theorem statement?_excludes_assignment? {a b : Kind} {s : List Char}
    {x y : Capture × List Char} (ha : statement? a s = some x) (hb : assignment? b s = some y) :
    False := by
  obtain ⟨text, split, statement⟩ := exists_of_statement? ha
  obtain ⟨other, same, assignment⟩ := exists_of_assignment? hb
  exact not_statement_of_assignment statement assignment (split.symm.trans same)

/-- A text begins with one shape at most. -/
theorem Shape.eq_of_scan? {a b : Shape} {s : List Char} {x y : Capture × List Char}
    (ha : a.scan? s = some x) (hb : b.scan? s = some y) : a = b := by
  cases a with
  | colonStatement | dotStatement | globalStatement =>
    cases b with
    | colonStatement | dotStatement | globalStatement =>
      cases statement?_kind_unique ha hb <;> rfl
    | dotAssignment | globalAssignment => exact (statement?_excludes_assignment? ha hb).elim
  | dotAssignment | globalAssignment =>
    cases b with
    | colonStatement | dotStatement | globalStatement =>
      exact (statement?_excludes_assignment? hb ha).elim
    | dotAssignment | globalAssignment =>
      cases assignment?_kind_unique ha hb <;> rfl

end LuaDecl.Definition
