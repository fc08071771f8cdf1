import LuaDecl.Definition.Shape

/-!
# What a shape looks like

`Shape.Fits` describes the text of each shape without reading it. Main statement: what
`Shape.scan?` takes off the front of a text fits the shape, so at least the keyword is taken and
what remains is shorter.
-/

namespace LuaDecl.Definition

open Text

/-- The text holds blanks only. -/
def Blanks (s : List Char) : Prop :=
  ∀ c ∈ s, isBlank c = true

/-- The text is an identifier. -/
def Identifier (s : List Char) : Prop :=
  (∃ c rest, s = c :: rest ∧ isIdentifierStart c = true) ∧ ∀ c ∈ s, isWord c = true

/-- The text is a word. -/
def Word (s : List Char) : Prop :=
  s ≠ [] ∧ ∀ c ∈ s, isWord c = true

/-- The text spells a table and name of the given kind. -/
def Subject (kind : Kind) (s : List Char) (table : Option (List Char)) (name : List Char) : Prop :=
  match kind with
  | .global => table = none ∧ s = name ∧ Identifier name
  | .dot => ∃ t, table = some t ∧ s = t ++ '.' :: name ∧ Identifier t ∧ Word name
  | .colon => ∃ t, table = some t ∧ s = t ++ ':' :: name ∧ Identifier t ∧ Word name

/-- The text is a definition statement with the given capture. -/
def Statement (kind : Kind) (s : List Char) (c : Capture) : Prop :=
  ∃ lead gap subject trail, Blanks lead ∧ Blanks gap ∧ gap ≠ [] ∧ Blanks trail ∧
    Subject kind subject c.table c.name ∧ ')' ∉ c.params ∧
    s = lead ++ keyword ++ gap ++ subject ++ trail ++ '(' :: (c.params ++ [')'])

/-- The text is a definition by assignment with the given capture. -/
def Assignment (kind : Kind) (s : List Char) (c : Capture) : Prop :=
  ∃ lead subject before after trail, Blanks lead ∧ Blanks before ∧ Blanks after ∧ Blanks trail ∧
    Subject kind subject c.table c.name ∧ ')' ∉ c.params ∧
    s = lead ++ subject ++ before ++ '=' :: after ++ keyword ++ trail ++
      '(' :: (c.params ++ [')'])

/-- The text is a definition of the shape with the given capture. -/
def Shape.Fits : Shape → List Char → Capture → Prop
  | .colonStatement => Statement .colon
  | .dotStatement => Statement .dot
  | .globalStatement => Statement .global
  | .dotAssignment => Assignment .dot
  | .globalAssignment => Assignment .global

/-! ### The steps of a scan -/

theorem exists_blanks_append_trimStart (s : List Char) :
    ∃ blanks, s = blanks ++ trimStart s ∧ Blanks blanks :=
  trimStart_suffix s

theorem exists_of_blanks? {s rest : List Char} (h : blanks? s = some rest) :
    ∃ gap, s = gap ++ rest ∧ Blanks gap ∧ gap ≠ [] := by
  cases s with
  | nil => simp [blanks?] at h
  | cons c tail =>
    simp only [blanks?, Option.ite_none_right_eq_some] at h
    obtain ⟨hc, hr⟩ := h
    obtain ⟨gap, hg, hb⟩ := exists_blanks_append_trimStart tail
    cases Option.some.inj hr
    exact ⟨c :: gap, by rw [List.cons_append, ← hg], by simpa [Blanks, hc] using hb, by simp⟩

private theorem takeWhile_isWord (s : List Char) : ∀ c ∈ s.takeWhile isWord, isWord c = true :=
  fun c hc => List.all_eq_true.mp List.all_takeWhile c hc

theorem append_of_identifier? {s name rest : List Char} (h : identifier? s = some (name, rest)) :
    s = name ++ rest ∧ Identifier name := by
  cases s with
  | nil => simp [identifier?] at h
  | cons c tail =>
    simp only [identifier?, Option.ite_none_right_eq_some] at h
    obtain ⟨hc, hr⟩ := h
    obtain ⟨rfl, rfl⟩ := Prod.mk.inj (Option.some.inj hr)
    refine ⟨by simp, ⟨c, _, rfl, hc⟩, ?_⟩
    simpa [isWord_of_isIdentifierStart hc] using takeWhile_isWord tail

theorem append_of_word? {s name rest : List Char} (h : word? s = some (name, rest)) :
    s = name ++ rest ∧ Word name := by
  cases s with
  | nil => simp [word?] at h
  | cons c tail =>
    simp only [word?, Option.ite_none_right_eq_some] at h
    obtain ⟨hc, hr⟩ := h
    obtain ⟨rfl, rfl⟩ := Prod.mk.inj (Option.some.inj hr)
    exact ⟨by simp, by simp, by simpa [hc] using takeWhile_isWord tail⟩

theorem append_of_parenthesized? {s params rest : List Char}
    (h : parenthesized? s = some (params, rest)) :
    s = '(' :: (params ++ ')' :: rest) ∧ ')' ∉ params := by
  unfold parenthesized? at h
  split at h
  · next tail =>
    split at h
    · next after hd =>
      obtain ⟨rfl, rfl⟩ := Prod.mk.inj (Option.some.inj h)
      refine ⟨by rw [← hd, List.takeWhile_append_dropWhile], fun hm => ?_⟩
      simpa using List.all_eq_true.mp List.all_takeWhile _ hm
    · simp at h
  · simp at h

theorem append_of_subject? {kind : Kind} {s rest name : List Char} {table : Option (List Char)}
    (h : subject? kind s = some ((table, name), rest)) :
    ∃ text, s = text ++ rest ∧ Subject kind text table name := by
  simp only [subject?, Option.bind_eq_bind, Option.bind_eq_some_iff] at h
  obtain ⟨⟨first, s₁⟩, h₁, h⟩ := h
  obtain ⟨rfl, hi⟩ := append_of_identifier? h₁
  cases kind with
  | global =>
    obtain ⟨⟨rfl, rfl⟩, rfl⟩ : (none = table ∧ first = name) ∧ s₁ = rest := by simpa using h
    exact ⟨first, rfl, rfl, rfl, hi⟩
  | dot =>
    simp only [Option.bind_eq_some_iff] at h
    obtain ⟨s₂, h₂, ⟨word, s₃⟩, h₃, h⟩ := h
    obtain ⟨⟨rfl, rfl⟩, rfl⟩ : (some first = table ∧ word = name) ∧ s₃ = rest := by simpa using h
    obtain ⟨rfl, hw⟩ := append_of_word? h₃
    exact ⟨first ++ '.' :: word, by simp [after?_eq_some_iff.mp h₂], first, rfl, rfl, hi, hw⟩
  | colon =>
    simp only [Option.bind_eq_some_iff] at h
    obtain ⟨s₂, h₂, ⟨word, s₃⟩, h₃, h⟩ := h
    obtain ⟨⟨rfl, rfl⟩, rfl⟩ : (some first = table ∧ word = name) ∧ s₃ = rest := by simpa using h
    obtain ⟨rfl, hw⟩ := append_of_word? h₃
    exact ⟨first ++ ':' :: word, by simp [after?_eq_some_iff.mp h₂], first, rfl, rfl, hi, hw⟩

theorem exists_of_statement? {kind : Kind} {s rest : List Char} {c : Capture}
    (h : statement? kind s = some (c, rest)) :
    ∃ text, s = text ++ rest ∧ Statement kind text c := by
  simp only [statement?, Option.bind_eq_bind, Option.bind_eq_some_iff] at h
  obtain ⟨s₁, h₁, s₂, h₂, ⟨⟨table, name⟩, s₃⟩, h₃, ⟨params, s₄⟩, h₄, h⟩ := h
  obtain ⟨rfl, rfl⟩ := Prod.mk.inj (Option.some.inj h)
  obtain ⟨lead, hlead, hl⟩ := exists_blanks_append_trimStart s
  obtain ⟨gap, rfl, hg, hne⟩ := exists_of_blanks? h₂
  obtain ⟨subject, rfl, hs⟩ := append_of_subject? h₃
  obtain ⟨trail, htrail, ht⟩ := exists_blanks_append_trimStart s₃
  obtain ⟨hp, hparen⟩ := append_of_parenthesized? h₄
  refine ⟨_, ?_, lead, gap, subject, trail, hl, hg, hne, ht, hs, hparen, rfl⟩
  rw [hlead, after?_eq_some_iff.mp h₁, htrail, hp]
  simp

theorem exists_of_assignment? {kind : Kind} {s rest : List Char} {c : Capture}
    (h : assignment? kind s = some (c, rest)) :
    ∃ text, s = text ++ rest ∧ Assignment kind text c := by
  simp only [assignment?, Option.bind_eq_bind, Option.bind_eq_some_iff] at h
  obtain ⟨⟨⟨table, name⟩, s₁⟩, h₁, s₂, h₂, s₃, h₃, ⟨params, s₄⟩, h₄, h⟩ := h
  obtain ⟨rfl, rfl⟩ := Prod.mk.inj (Option.some.inj h)
  obtain ⟨lead, hlead, hl⟩ := exists_blanks_append_trimStart s
  obtain ⟨subject, hsub, hs⟩ := append_of_subject? h₁
  obtain ⟨before, hbefore, hb⟩ := exists_blanks_append_trimStart s₁
  obtain ⟨after, hafter, ha⟩ := exists_blanks_append_trimStart s₂
  obtain ⟨trail, htrail, ht⟩ := exists_blanks_append_trimStart s₃
  obtain ⟨hp, hparen⟩ := append_of_parenthesized? h₄
  refine ⟨_, ?_, lead, subject, before, after, trail, hl, hb, ha, ht, hs, hparen, rfl⟩
  rw [hlead, hsub, hbefore, after?_eq_some_iff.mp h₂, hafter, after?_eq_some_iff.mp h₃, htrail, hp]
  simp

/-- A scan takes a text that fits the shape off the front. -/
theorem Shape.exists_of_scan? {shape : Shape} {s rest : List Char} {c : Capture}
    (h : shape.scan? s = some (c, rest)) : ∃ text, s = text ++ rest ∧ shape.Fits text c := by
  cases shape with
  | colonStatement | dotStatement | globalStatement => exact exists_of_statement? h
  | dotAssignment | globalAssignment => exact exists_of_assignment? h

theorem Shape.length_pos_of_fits {shape : Shape} {text : List Char} {c : Capture}
    (h : shape.Fits text c) : 0 < text.length := by
  cases shape with
  | colonStatement | dotStatement | globalStatement =>
    obtain ⟨lead, gap, subject, trail, -, -, -, -, -, -, rfl⟩ := h
    simp only [List.length_append, List.length_cons]
    omega
  | dotAssignment | globalAssignment =>
    obtain ⟨lead, subject, before, after, trail, -, -, -, -, -, -, rfl⟩ := h
    simp only [List.length_append, List.length_cons]
    omega

theorem Shape.length_lt_of_scan? {shape : Shape} {s rest : List Char} {c : Capture}
    (h : shape.scan? s = some (c, rest)) : rest.length < s.length := by
  obtain ⟨text, rfl, hf⟩ := exists_of_scan? h
  have := length_pos_of_fits hf
  simp
  omega

end LuaDecl.Definition
