import LuaDecl.Proofs.Definition.Scan
import Mathlib.Data.List.DropRight

/-!
# The end of a text

Read from its end, a text holds blanks, then a word, then whatever the word begins behind. The
lemmas say that a text written in this way is taken apart at these very places, so the last word
and the text before it can be read off any such writing.
-/

namespace LuaDecl.Text

open Definition

/-- A text is what trimming leaves and blanks behind it. -/
theorem exists_trimEnd_append_blanks (s : List Char) :
    ∃ blanks, s = trimEnd s ++ blanks ∧ Blanks blanks := by
  refine ⟨s.rtakeWhile isBlank, ?_, ?_⟩
  · exact List.rdropWhile_append_rtakeWhile.symm
  · intro c member
    exact List.mem_rtakeWhile_imp member

/-- Blanks at the end are trimmed. -/
theorem trimEnd_append_blanks {blanks : List Char} (h : Blanks blanks) (s : List Char) :
    trimEnd (s ++ blanks) = trimEnd s := by
  have back : Blanks blanks.reverse := by
    intro c member
    exact h c (List.mem_reverse.mp member)
  have front := trimStart_blanks_append back s.reverse
  rw [trimStart, trimStart] at front
  rw [trimEnd, trimEnd, List.reverse_append, front]

/-- Behind the text a word begins: its last character belongs to none. -/
def BeginsWord (s : List Char) : Prop :=
  ∀ front c, s = front ++ [c] → isWord c = false

theorem beginsWord_nil : BeginsWord [] := by
  intro front c equal
  simp at equal

theorem beginsWord_concat {c : Char} (h : isWord c = false) (s : List Char) :
    BeginsWord (s ++ [c]) := by
  intro front d equal
  obtain rfl : c = d := by simpa using (List.append_inj' equal rfl).2
  exact h

theorem beginsWord_append_blanks {s blanks : List Char} (hs : BeginsWord s) (hb : Blanks blanks) :
    BeginsWord (s ++ blanks) := by
  rcases List.eq_nil_or_concat blanks with rfl | ⟨front, last, rfl⟩
  · rwa [List.append_nil]
  · rw [List.concat_eq_append, ← List.append_assoc]
    exact beginsWord_concat (isWord_eq_false_of_isBlank (hb last (by simp))) _

theorem BeginsWord.endsWord_reverse {s : List Char} (h : BeginsWord s) : EndsWord s.reverse := by
  intro c rest equal
  apply h rest.reverse c
  rw [← List.reverse_reverse s, equal, List.reverse_cons]

/-- The word at the end of a text, whatever blanks stand behind it. It is empty if the last
character that is no blank belongs to no word. -/
def lastWord (s : List Char) : List Char :=
  (trimEnd s).rtakeWhile isWord

/-- The text before its last word. -/
def beforeLastWord (s : List Char) : List Char :=
  (trimEnd s).rdropWhile isWord

theorem trimEnd_append_word {word : List Char} (h : Word word) (s : List Char) :
    trimEnd (s ++ word) = s ++ word := by
  rcases List.eq_nil_or_concat word with rfl | ⟨front, last, rfl⟩
  · exact absurd rfl h.1
  · have visible := isBlank_eq_false_of_isWord (h.2 last (by simp))
    rw [List.concat_eq_append, ← List.append_assoc]
    exact trimEnd_append_of_not_isBlank visible

/-- Trimming leaves the last word and what stands before it. -/
theorem trimEnd_eq (s : List Char) : trimEnd s = beforeLastWord s ++ lastWord s :=
  List.rdropWhile_append_rtakeWhile.symm

theorem beforeLastWord_append {front word blanks : List Char} (hf : BeginsWord front)
    (hw : Word word) (hb : Blanks blanks) : beforeLastWord (front ++ word ++ blanks) = front := by
  have back : ∀ c ∈ word.reverse, isWord c = true := by
    intro c member
    exact hw.2 c (List.mem_reverse.mp member)
  rw [beforeLastWord, trimEnd_append_blanks hb, trimEnd_append_word hw, List.rdropWhile,
    List.reverse_append, dropWhile_isWord_append back hf.endsWord_reverse, List.reverse_reverse]

theorem lastWord_append {front word blanks : List Char} (hf : BeginsWord front)
    (hw : Word word) (hb : Blanks blanks) : lastWord (front ++ word ++ blanks) = word := by
  have whole := trimEnd_eq (front ++ word ++ blanks)
  rw [beforeLastWord_append hf hw hb, trimEnd_append_blanks hb, trimEnd_append_word hw] at whole
  exact (List.append_cancel_left whole).symm

/-- A text ends with a word, up to blanks, if and only if its last word does. -/
theorem suffix_lastWord_iff {word s : List Char} (hw : ∀ c ∈ word, isWord c = true) :
    word <:+ lastWord s ↔ word <:+ trimEnd s := by
  constructor
  · intro h
    exact h.trans (List.rtakeWhile_suffix isWord (trimEnd s))
  · rintro ⟨front, whole⟩
    have back : ∀ c ∈ word.reverse, isWord c = true := by
      intro c member
      exact hw c (List.mem_reverse.mp member)
    rw [lastWord, ← whole, List.rtakeWhile, List.reverse_append,
      List.takeWhile_append_of_pos back, List.reverse_append, List.reverse_reverse]
    exact List.suffix_append _ word

end LuaDecl.Text
