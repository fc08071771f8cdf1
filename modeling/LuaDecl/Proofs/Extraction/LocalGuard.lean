import LuaDecl.Proofs.Definition.Captures
import LuaDecl.Proofs.Text.LastWord
import LuaDecl.Proofs.Text.Lines

/-!
# Texts that hide no global

A global is private when the text before it ends, up to blanks, with `local`. In a text made of
lines that do not end so, no hit is private, and then the signatures follow from the captures
alone.
-/

namespace LuaDecl

namespace Extraction

open Definition Text

/-- Up to blanks the text ends with `local`, however far back that stands. -/
def EndsLocal (s : List Char) : Prop :=
  ∃ blanks, Blanks blanks ∧ localKeyword ++ blanks <:+ s

theorem length_localKeyword_append_le_iff {blanks : List Char} :
    (localKeyword ++ blanks).length ≤ localWindow ↔ blanks.length ≤ 15 := by
  have window : localWindow = localKeyword.length + 15 := by decide
  rw [List.length_append, window, Nat.add_le_add_iff_left]

/-- The guard sees the keyword if at most fifteen blanks stand behind it, which is what the window
has room for. -/
theorem endsWithLocal_iff {before : List Char} :
    endsWithLocal before = true ↔
      ∃ blanks, Blanks blanks ∧ blanks.length ≤ 15 ∧ localKeyword ++ blanks <:+ before := by
  have inside : (before.drop (before.length - localWindow)).length =
      min localWindow before.length := by
    rw [List.length_drop]
    omega
  constructor
  · intro h
    obtain ⟨front, equal⟩ := List.isSuffixOf_iff_suffix.mp h
    obtain ⟨blanks, whole, all⟩ :=
      exists_trimEnd_append_blanks (before.drop (before.length - localWindow))
    have window : localKeyword ++ blanks <:+ before.drop (before.length - localWindow) := by
      refine ⟨front, ?_⟩
      rw [← List.append_assoc, equal]
      exact whole.symm
    refine ⟨blanks, all, length_localKeyword_append_le_iff.mp ?_,
      window.trans (List.drop_suffix _ _)⟩
    have short := window.length_le
    omega
  · rintro ⟨blanks, all, room, suffix⟩
    have short := length_localKeyword_append_le_iff.mpr room
    have long := suffix.length_le
    obtain ⟨front, window⟩ := List.suffix_of_suffix_length_le suffix
      (List.drop_suffix (before.length - localWindow) before) (by omega)
    rw [endsWithLocal, List.isSuffixOf_iff_suffix, ← window, ← List.append_assoc,
      trimEnd_append_blanks all]
    have visible : isBlank 'l' = false := by decide
    have kept := trimEnd_append_of_not_isBlank (s := front ++ ['l', 'o', 'c', 'a']) visible
    simp only [List.append_assoc, List.cons_append, List.nil_append] at kept
    exact ⟨front, kept.symm⟩

theorem endsLocal_of_endsWithLocal {before : List Char} (h : endsWithLocal before = true) :
    EndsLocal before := by
  obtain ⟨blanks, all, -, suffix⟩ := endsWithLocal_iff.mp h
  exact ⟨blanks, all, suffix⟩

/-- What stands before an opening parenthesis is out of sight. -/
theorem endsWithLocal_append_paren (front s : List Char) :
    endsWithLocal (front ++ '(' :: s) = endsWithLocal ('(' :: s) := by
  rw [Bool.eq_iff_iff, endsWithLocal_iff, endsWithLocal_iff]
  constructor
  · rintro ⟨blanks, all, short, suffix⟩
    refine ⟨blanks, all, short, ?_⟩
    rcases List.suffix_or_suffix_of_suffix suffix (List.suffix_append front ('(' :: s)) with
      inside | across
    · exact inside
    · have member : '(' ∈ localKeyword ++ blanks := across.subset List.mem_cons_self
      have visible : '(' ∉ localKeyword := by decide
      rcases List.mem_append.mp member with keyword | blank
      · exact absurd keyword visible
      · exact absurd blank (all.not_mem (by decide))
  · rintro ⟨blanks, all, short, suffix⟩
    exact ⟨blanks, all, short, suffix.trans (List.suffix_append front ('(' :: s))⟩

theorem not_endsLocal_nil : ¬ EndsLocal [] := by
  rintro ⟨blanks, -, suffix⟩
  have empty := List.suffix_nil.mp suffix
  simp [localKeyword] at empty

/-- What stands before blanks decides. -/
theorem not_endsLocal_append_lineFeed {s : List Char} (h : ¬ EndsLocal s) :
    ¬ EndsLocal (s ++ ['\n']) := by
  rintro ⟨blanks, all, suffix⟩
  rcases List.eq_nil_or_concat blanks with rfl | ⟨front, last, rfl⟩
  · obtain ⟨before, equal⟩ := suffix
    have lasts := congrArg List.getLast? equal
    simp [localKeyword] at lasts
  · rw [List.concat_eq_append] at all suffix
    rw [← List.append_assoc] at suffix
    obtain ⟨before, equal⟩ := suffix
    rw [← List.append_assoc] at equal
    obtain ⟨whole, -⟩ := List.append_inj' equal rfl
    apply h
    exact ⟨front, (blanks_append_iff.mp all).1, before, whole⟩

/-- Behind a character that is no blank only the text itself counts. -/
theorem not_endsLocal_of_not_suffix {s front : List Char} {last : Char} (hs : s = front ++ [last])
    (visible : isBlank last = false) (h : ¬ localKeyword <:+ s) : ¬ EndsLocal s := by
  rintro ⟨blanks, all, suffix⟩
  rcases List.eq_nil_or_concat blanks with rfl | ⟨start, final, rfl⟩
  · exact h (by simpa using suffix)
  · rw [List.concat_eq_append] at all suffix
    obtain ⟨before, equal⟩ := suffix
    rw [hs, ← List.append_assoc, ← List.append_assoc] at equal
    obtain ⟨-, same⟩ := List.append_inj' equal rfl
    obtain rfl : final = last := by simpa using same
    exact absurd (by simp) (all.not_mem visible)

/-- The line ends no text with `local`. -/
structure PublicLine (line : List Char) : Prop where
  oneLine : '\n' ∉ line
  keeps : ∀ before, ¬ EndsLocal before → ¬ EndsLocal (before ++ line)

theorem publicLine_nil : PublicLine [] where
  oneLine := by simp
  keeps := by simp

/-- The front of a text of such lines, up to the end of one of them, does not end with `local`. -/
theorem not_endsLocal_of_prefix {lines : List (List Char)} (h : ∀ line ∈ lines, PublicLine line)
    {before a : List Char} (hb : ¬ EndsLocal before) (front : a ++ ['\n'] <+: unlines lines) :
    ¬ EndsLocal (before ++ (a ++ ['\n'])) := by
  induction lines generalizing before a with
  | nil => simp [List.prefix_nil] at front
  | cons line lines ih =>
    obtain ⟨first, others⟩ := List.forall_mem_cons.mp h
    have closed : ¬ EndsLocal (before ++ line ++ ['\n']) :=
      not_endsLocal_append_lineFeed (first.keeps before hb)
    rcases prefix_unlines_cons first.oneLine front with rfl | ⟨later, rfl, rest⟩
    · simpa using closed
    · simpa using ih others closed rest

/-- In a text of such lines no global is private. -/
theorem isPrivate_eq_false {lines : List (List Char)} (h : ∀ line ∈ lines, PublicLine line)
    {shape : Shape} {hit : Hit} (found : hit ∈ shape.hits (unlines lines)) :
    isPrivate (unlines lines) shape hit = false := by
  obtain ⟨-, inside, bound, line, -⟩ := (Shape.finds_hits shape _).sound hit found
  have noLocal : ¬ EndsLocal ((unlines lines).take hit.start) := by
    rcases IsLineStart.take_eq line with start | ⟨front, lineFeed⟩
    · rw [start]
      exact not_endsLocal_nil
    · have whole := List.take_prefix hit.start (unlines lines)
      rw [lineFeed] at whole ⊢
      exact not_endsLocal_of_prefix h not_endsLocal_nil whole
  cases guard : endsWithLocal ((unlines lines).take hit.start) with
  | true => exact absurd (endsLocal_of_endsWithLocal guard) noLocal
  | false => simp [isPrivate, guard]

/-- The signature that a capture of a shape stands for. -/
def ofCapture (shape : Shape) (c : Capture) : Signature :=
  signature shape ⟨0, 0, c⟩

/-- In a text of such lines the signatures of a shape are those of its captures. -/
theorem ofShape_unlines {lines : List (List Char)} (h : ∀ line ∈ lines, PublicLine line)
    (shape : Shape) :
    ofShape (unlines lines) shape =
      (shape.captures true (unlines lines)).map (ofCapture shape) := by
  have all : (shape.hits (unlines lines)).filter
      (fun hit => !isPrivate (unlines lines) shape hit) = shape.hits (unlines lines) := by
    apply List.filter_eq_self.mpr
    intro hit found
    simp [isPrivate_eq_false h found]
  rw [ofShape, all, ← Shape.map_capture_hits, List.map_map]
  rfl

end Extraction

end LuaDecl
