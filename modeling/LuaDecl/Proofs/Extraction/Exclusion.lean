import LuaDecl.Proofs.Definition.Parenthesis
import LuaDecl.Proofs.Extraction.LocalGuard

/-!
# What hides a global

A hit takes all the white space before its definition, back to the line that something visible
stands on, so one line feed and no more stands in the white space before the hit
(`Shape.eq_nil_of_take_start`). The guard therefore sees `local` on the line before the hit or not
at all, however many blank lines follow it. Main statements: `local_hides_exactly`, and for the word
at the end of that line `hidden_by_lastWord`.
-/

namespace LuaDecl

namespace Definition.Shape

variable {shape : Shape} {text : List Char} {hit : Hit}

/-- Of two hits, the one that starts before the other ends before it. -/
theorem Finds.stop_le_start {position : Nat} {hits : List Hit}
    (h : shape.Finds text position hits) {x y : Hit} (hx : x ∈ hits) (hy : y ∈ hits)
    (first : x.start < y.start) : x.stop ≤ y.start := by
  have forward : hits.Pairwise fun a b => a.start < b.start → a.stop ≤ b.start := by
    apply h.ordered.imp
    intro a b apart _
    exact apart
  have backward : hits.Pairwise (flip fun a b => a.start < b.start → a.stop ≤ b.start) := by
    apply h.ordered.imp_of_mem
    intro a b ha hb apart first
    obtain ⟨-, positive, -⟩ := h.sound a ha
    omega
  have same : ∀ a ∈ hits, a.start < a.start → a.stop ≤ a.start := by
    intro a _ impossible
    omega
  exact forward.forall_of_forall_of_flip same backward hx hy first

/-- A definition may have more blanks before it. -/
theorem fits_blanks_append {blanks definition : List Char} {c : Capture} (hb : Blanks blanks)
    (h : shape.Fits definition c) : shape.Fits (blanks ++ definition) c := by
  have more {lead : List Char} (hl : Blanks lead) : Blanks (blanks ++ lead) :=
    blanks_append_iff.mpr ⟨hb, hl⟩
  cases shape with
  | colonStatement | dotStatement | globalStatement =>
    obtain ⟨lead, gap, subject, trail, hl, rest⟩ := h
    exact ⟨blanks ++ lead, gap, subject, trail, more hl, by simpa using rest⟩
  | dotAssignment | globalAssignment =>
    obtain ⟨lead, subject, before, after, trail, hl, rest⟩ := h
    exact ⟨blanks ++ lead, subject, before, after, trail, more hl, by simpa using rest⟩

/-- A line feed with nothing but blanks between it and a hit stands right before the hit. Otherwise
the shape would fit right behind the line feed, and no hit could cover that place: it would close
among the blanks. -/
theorem eq_nil_of_take_start (found : hit ∈ shape.hits text) {front later : List Char}
    (blank : Blanks later) (split : text.take hit.start = front ++ '\n' :: later) :
    later = [] := by
  have search := finds_hits shape text
  obtain ⟨-, positive, inside, -, fits⟩ := search.sound hit found
  have lengths := congrArg List.length split
  rw [List.length_take, List.length_append, List.length_cons] at lengths
  have line : IsLineStart text (front.length + 1) := by
    have before : front.length < hit.start := by omega
    rw [isLineStart_succ, ← List.getElem?_take_of_lt before, split]
    simp
  have spelled : text.extract (front.length + 1) hit.stop =
      later ++ text.extract hit.start hit.stop := by
    have length : (front ++ ['\n']).length = front.length + 1 := by simp
    rw [Text.extract_eq_drop_take, ← Text.take_append_extract (Nat.le_of_lt positive), split,
      List.append_cons, List.append_assoc, List.drop_left' length]
  have wider : shape.Fits (text.extract (front.length + 1) hit.stop) hit.capture := by
    rw [spelled]
    exact fits_blanks_append blank fits
  obtain ⟨other, member, begins, covers⟩ :=
    search.complete _ _ _ (Nat.zero_le _) line wider
  by_contra visible
  have some := List.length_pos_of_ne_nil visible
  have apart : other.stop ≤ hit.start := search.stop_le_start member found (by omega)
  have closing := getElem?_stop member
  rw [← List.getElem?_take_of_lt (show other.stop - 1 < hit.start by omega), split,
    List.getElem?_append_right (by omega)] at closing
  have among : ')' ∈ later := by
    rcases List.mem_cons.mp (List.mem_of_getElem? closing) with lineFeed | among
    · cases lineFeed
    · exact among
  exact paren_not_mem_blanks blank among

/-- The blanks between a word and a hit are some on the line of the word and the line feed before
the hit. -/
theorem exists_gap_of_take_start (found : hit ∈ shape.hits text) {front word blanks : List Char}
    (hw : Word word) (blank : Blanks blanks)
    (split : text.take hit.start = front ++ word ++ blanks) :
    ∃ gap, blanks = gap ++ ['\n'] ∧ '\n' ∉ gap := by
  obtain ⟨-, -, -, line, -⟩ := (finds_hits shape text).sound hit found
  rcases IsLineStart.take_eq line with empty | ⟨lines, lineFeed⟩
  · rw [split] at empty
    simp [hw.1] at empty
  rcases List.eq_nil_or_concat blanks with rfl | ⟨gap, last, rfl⟩
  · have ends : (front ++ word).getLast? = some '\n' := by
      rw [← List.append_nil (front ++ word), ← split, lineFeed, List.getLast?_concat]
    rw [List.getLast?_append_of_ne_nil front hw.1] at ends
    exact absurd (List.mem_of_getLast? ends) (hw.not_mem (by decide))
  · rw [List.concat_eq_append] at blank split
    obtain rfl : last = '\n' := by
      rw [split, ← List.append_assoc] at lineFeed
      simpa using (List.append_inj' lineFeed rfl).2
    refine ⟨gap, List.concat_eq_append, ?_⟩
    intro member
    obtain ⟨start, later, rfl⟩ := List.append_of_mem member
    have inner : text.take hit.start = front ++ word ++ start ++ '\n' :: (later ++ ['\n']) := by
      rw [split]
      simp
    rw [List.append_assoc, List.cons_append, List.append_cons] at blank
    have rest : Blanks (later ++ ['\n']) := (blanks_append_iff.mp blank).2
    have empty := eq_nil_of_take_start found rest inner
    simp at empty

end Definition.Shape

namespace Extraction

open Definition Text

variable {shape : Shape} {hit : Hit}

/-- The signatures that a hit contributes: its own, or none if it is private. -/
def contribution (text : List Char) (shape : Shape) (hit : Hit) : List Signature :=
  if isPrivate text shape hit then [] else [signature shape hit]

theorem ofShape_eq_flatMap (text : List Char) (shape : Shape) :
    ofShape text shape = (shape.hits text).flatMap (contribution text shape) := by
  rw [ofShape]
  induction shape.hits text with
  | nil => rfl
  | cons hit hits ih =>
    rw [List.flatMap_cons, ← ih, contribution]
    by_cases hidden : isPrivate text shape hit = true
    · rw [List.filter_cons_of_neg (by simp [hidden]), if_pos hidden, List.nil_append]
    · rw [List.filter_cons_of_pos (by simp [hidden]), if_neg hidden, List.map_cons]
      rfl

theorem contribution_eq_nil_iff {text : List Char} (global : shape.kind = .global) :
    contribution text shape hit = [] ↔ endsWithLocal (text.take hit.start) = true := by
  simp [contribution, isPrivate, global]

theorem contribution_of_ne_nil {text : List Char} (h : contribution text shape hit ≠ []) :
    contribution text shape hit = [signature shape hit] := by
  unfold contribution at h ⊢
  by_cases hidden : isPrivate text shape hit = true
  · rw [if_pos hidden] at h
    exact absurd rfl h
  · rw [if_neg hidden]

theorem contribution_of_not_global {text : List Char} (h : shape.kind ≠ .global) :
    contribution text shape hit = [signature shape hit] := by
  simp [contribution, isPrivate, h]

theorem word_localKeyword : Word localKeyword := by
  have word : localKeyword.all isWord = true := by decide
  exact ⟨List.cons_ne_nil _ _, List.all_eq_true.mp word⟩

/-- The guard sees `local` on the line before the hit, with fourteen blanks behind it at most. -/
theorem endsWithLocal_take_start_iff {text : List Char} (found : hit ∈ shape.hits text) :
    endsWithLocal (text.take hit.start) = true ↔
      ∃ gap, Blanks gap ∧ '\n' ∉ gap ∧ gap.length ≤ 14 ∧
        localKeyword ++ gap ++ ['\n'] <:+ text.take hit.start := by
  rw [endsWithLocal_iff]
  constructor
  · rintro ⟨blanks, all, short, front, whole⟩
    rw [← List.append_assoc] at whole
    obtain ⟨gap, rfl, fresh⟩ :=
      Shape.exists_gap_of_take_start found word_localKeyword all whole.symm
    refine ⟨gap, ?_, fresh, ?_, front, ?_⟩
    · exact (blanks_append_iff.mp all).1
    · rw [List.length_append, List.length_singleton] at short
      omega
    · rw [← whole]
      simp
  · rintro ⟨gap, all, -, short, suffix⟩
    refine ⟨gap ++ ['\n'], ?_, ?_, ?_⟩
    · exact blanks_append_iff.mpr ⟨all, blanks_lineFeed⟩
    · rw [List.length_append, List.length_singleton]
      omega
    · rwa [← List.append_assoc]

/-- Blank lines between the line of `local` and a definition are part of the hit, so they do not
take `local` out of sight. -/
theorem endsWithLocal_of_blankLines {text : List Char} (found : hit ∈ shape.hits text)
    {position : Nat} {gap lines : List Char} (inside : hit.start ≤ position)
    (lead : Blanks (text.extract hit.start position)) (hg : Blanks gap) (oneLine : '\n' ∉ gap)
    (short : gap.length ≤ 14) (hl : Blanks lines)
    (ends : localKeyword ++ gap ++ '\n' :: lines <:+ text.take position) :
    endsWithLocal (text.take hit.start) = true := by
  obtain ⟨front, whole⟩ := ends
  have blank : Blanks (gap ++ '\n' :: lines) :=
    blanks_append_iff.mpr ⟨hg, blanks_append_iff.mpr ⟨blanks_lineFeed, hl⟩⟩
  have spelled : text.take position = front ++ localKeyword ++ (gap ++ '\n' :: lines) := by
    rw [← whole]
    simp
  have trimmed : trimEnd (text.take hit.start) = front ++ localKeyword := by
    rw [← trimEnd_append_blanks lead, take_append_extract inside, spelled,
      trimEnd_append_blanks blank, trimEnd_append_word word_localKeyword]
  obtain ⟨blanks, split, all⟩ := exists_trimEnd_append_blanks (text.take hit.start)
  rw [trimmed] at split
  obtain ⟨own, rfl, fresh⟩ := Shape.exists_gap_of_take_start found word_localKeyword all split
  have same : own ++ '\n' :: text.extract hit.start position = gap ++ '\n' :: lines := by
    rw [← take_append_extract inside, split] at spelled
    simpa using spelled
  obtain ⟨rfl, -⟩ := eq_of_append_cons_eq fresh oneLine same
  apply (endsWithLocal_take_start_iff found).mpr
  refine ⟨own, hg, oneLine, short, front, ?_⟩
  rw [split]
  simp

/-- A preceding `local` hides globals and nothing else. The signatures of a text are what its hits
contribute, shape by shape. A hit that defines no global contributes its signature. One that does
contributes none exactly if the text before it ends with `local`, at most fourteen blanks on the
same line and a line feed, and its signature otherwise. If blank lines stand between the line of
`local` and the definition, of any number and length, then the hit contributes none. -/
theorem local_hides_exactly (text : String) :
    (ofText text).signatures =
      (Shape.all.flatMap fun shape =>
        (shape.hits text.toList).flatMap (contribution text.toList shape)) ∧
    ∀ shape : Shape, ∀ hit ∈ shape.hits text.toList,
      (shape.kind ≠ .global → contribution text.toList shape hit = [signature shape hit]) ∧
      (shape.kind = .global →
        (contribution text.toList shape hit = [] ↔
          ∃ gap, Blanks gap ∧ '\n' ∉ gap ∧ gap.length ≤ 14 ∧
            localKeyword ++ gap ++ ['\n'] <:+ text.toList.take hit.start) ∧
        (contribution text.toList shape hit ≠ [] →
          contribution text.toList shape hit = [signature shape hit]) ∧
        ∀ position gap lines, hit.start ≤ position →
          Blanks (text.toList.extract hit.start position) →
          Blanks gap → '\n' ∉ gap → gap.length ≤ 14 → Blanks lines →
          localKeyword ++ gap ++ '\n' :: lines <:+ text.toList.take position →
            contribution text.toList shape hit = []) := by
  constructor
  · show Shape.all.flatMap (ofShape text.toList) = _
    congr 1
    funext shape
    exact ofShape_eq_flatMap text.toList shape
  · intro shape hit found
    refine ⟨contribution_of_not_global, ?_⟩
    intro global
    refine ⟨?_, contribution_of_ne_nil, ?_⟩
    · rw [contribution_eq_nil_iff global]
      exact endsWithLocal_take_start_iff found
    · intro position gap lines inside lead hg oneLine short hl ends
      rw [contribution_eq_nil_iff global]
      exact endsWithLocal_of_blankLines found inside lead hg oneLine short hl ends

/-- Blank lines do not count, blanks on the line of the keyword do. -/
example :
    (ofText "local\n\n  \t\n\n\n\n\n\n\n\n\n\n\n\n\n\n\n\n  f = function() end").isEmpty = true ∧
      (ofText "local               \nf = function() end").isEmpty = false := by
  decide +kernel

/-! ### The word before a global -/

/-- The guard looks at the end of the last word, and fifteen blanks may stand behind that. -/
theorem endsWithLocal_iff_lastWord {before : List Char} :
    endsWithLocal before = true ↔
      localKeyword <:+ lastWord before ∧ before.length ≤ (trimEnd before).length + 15 := by
  rw [endsWithLocal_iff, suffix_lastWord_iff word_localKeyword.2]
  constructor
  · rintro ⟨blanks, all, short, front, whole⟩
    rw [← List.append_assoc] at whole
    have trimmed : trimEnd before = front ++ localKeyword := by
      rw [← whole, trimEnd_append_blanks all, trimEnd_append_word word_localKeyword]
    refine ⟨⟨front, trimmed.symm⟩, ?_⟩
    rw [trimmed, ← whole, List.length_append]
    omega
  · rintro ⟨⟨front, trimmed⟩, short⟩
    obtain ⟨blanks, split, all⟩ := exists_trimEnd_append_blanks before
    rw [← trimmed] at split short
    refine ⟨blanks, all, ?_, front, ?_⟩
    · rw [split, List.length_append] at short
      omega
    · rw [split, List.append_assoc]

/-- The word that hides a global. A hit that defines one contributes no signature exactly if the
last word before it ends with `local` and at most fifteen blanks stand behind that word. So unless
this is a longer word that ends with `local`, it is `local`, and behind any identifier that ends in
another way the hit contributes its signature. -/
theorem hidden_by_lastWord (text : String) (global : shape.kind = .global) :
    ∀ hit ∈ shape.hits text.toList,
      let before := text.toList.take hit.start
      (contribution text.toList shape hit = [] ↔
        localKeyword <:+ lastWord before ∧ before.length ≤ (trimEnd before).length + 15) ∧
      ((∀ front c, lastWord before ≠ front ++ c :: localKeyword) →
        contribution text.toList shape hit = [] → lastWord before = localKeyword) ∧
      ∀ front name blanks, before = front ++ name ++ blanks → BeginsWord front →
        Identifier name → Blanks blanks → ¬ localKeyword <:+ name →
          contribution text.toList shape hit = [signature shape hit] := by
  intro hit _ before
  have exactly : contribution text.toList shape hit = [] ↔
      localKeyword <:+ lastWord before ∧ before.length ≤ (trimEnd before).length + 15 := by
    rw [contribution_eq_nil_iff global]
    exact endsWithLocal_iff_lastWord
  refine ⟨exactly, ?_, ?_⟩
  · intro noLonger hidden
    obtain ⟨front, whole⟩ := (exactly.mp hidden).1
    rcases List.eq_nil_or_concat front with rfl | ⟨start, c, rfl⟩
    · exact whole.symm
    · rw [List.concat_eq_append, List.append_assoc] at whole
      exact absurd whole.symm (noLonger start c)
  · intro front name blanks split hf hi hb other
    have word : lastWord before = name := by
      rw [split]
      exact lastWord_append hf hi.word hb
    apply contribution_of_ne_nil
    intro hidden
    have ends := (exactly.mp hidden).1
    rw [word] at ends
    exact other ends

/-- A global behind `local` and a blank line. -/
theorem hidden_by_lastWord_keyword :
    ∃ hit ∈ Shape.globalStatement.hits "é local\n\nfunction f() end".toList,
      contribution "é local\n\nfunction f() end".toList .globalStatement hit = [] ∧
        lastWord ("é local\n\nfunction f() end".toList.take hit.start) = localKeyword := by
  have found : Hit.mk 8 21 ⟨none, ['f'], []⟩ ∈
      Shape.globalStatement.hits "é local\n\nfunction f() end".toList := by decide +kernel
  obtain ⟨exactly, word, -⟩ := hidden_by_lastWord _ rfl _ found
  have hidden := exactly.mpr (by decide +kernel)
  refine ⟨_, found, hidden, word ?_ hidden⟩
  intro front c longer
  have lengths := congrArg List.length longer
  have five : (lastWord ("é local\n\nfunction f() end".toList.take 8)).length = 5 := by
    decide +kernel
  rw [five, List.length_append, List.length_cons] at lengths
  have keyword : localKeyword.length = 5 := rfl
  omega

/-- A global behind a name that ends with the keyword, which hides it like the keyword. -/
theorem hidden_by_longer_word :
    ∃ hit ∈ Shape.globalStatement.hits "x = is_local\nfunction Public() end".toList,
      contribution "x = is_local\nfunction Public() end".toList .globalStatement hit = [] ∧
        lastWord ("x = is_local\nfunction Public() end".toList.take hit.start) ≠ localKeyword := by
  have found : Hit.mk 13 30 ⟨none, "Public".toList, []⟩ ∈
      Shape.globalStatement.hits "x = is_local\nfunction Public() end".toList := by decide +kernel
  exact ⟨_, found, by decide +kernel, by decide +kernel⟩

end Extraction

end LuaDecl
