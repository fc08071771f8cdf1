import LuaDecl.Proofs.Comment.Dashes
import LuaDecl.Proofs.Comment.Decomposition
import LuaDecl.Proofs.Text.LineEnding

/-!
# Comments and line endings

Both passes of comment removal go through two texts in step that differ in carriage returns before
line feeds only, and leave such texts. The second pass takes the carriage return at the end of a
line comment away, and so the texts that it leaves may end some lines alike and others not.
-/

namespace LuaDecl.Comment

open Text

variable {s t : List Char}

/-! ### Long comments -/

theorem readAlike_longOpener? (h : ReturnsAdded s t) :
    ReadAlike Eq (longOpener? s) (longOpener? t) := by
  apply rel_of_some
  · rintro ⟨level, body⟩ hs
    rw [longOpener?_eq_some_iff.mp hs] at h
    have oneLine : '\n' ∉ longOpen level :=
      not_mem_longOpen (by decide) (by decide) (by decide) level
    obtain ⟨other, spelled, related⟩ := h.exists_append_mark oneLine
    exact ⟨(level, other), longOpener?_eq_some_iff.mpr spelled, rfl, related⟩
  · rintro ⟨level, body⟩ ht
    rw [longOpener?_eq_some_iff.mp ht] at h
    have plain : '\r' ∉ longOpen level :=
      not_mem_longOpen (by decide) (by decide) (by decide) level
    obtain ⟨other, spelled, -⟩ := h.exists_of_append_mark plain
    exact ⟨(level, other), longOpener?_eq_some_iff.mpr spelled⟩

theorem rel_afterLong? (h : ReturnsAdded s t) :
    Option.Rel ReturnsAdded (afterLong? s) (afterLong? t) := by
  apply rel_bind (readAlike_longOpener? h)
  rintro ⟨level, body⟩ ⟨_, other⟩ ⟨rfl, bodies⟩
  have plain : '\r' ∉ longClose level := not_mem_longClose (by decide) (by decide) level
  have oneLine : '\n' ∉ longClose level := not_mem_longClose (by decide) (by decide) level
  apply rel_bind (bodies.cut? (List.cons_ne_nil _ _) plain oneLine)
  rintro _ _ ⟨-, related⟩
  exact .some related

theorem returnsAdded_removeLong (h : ReturnsAdded s t) :
    ReturnsAdded (removeLong s) (removeLong t) := by
  fun_induction removeLong s generalizing t with
  | case1 =>
    rw [h.nil_iff.mp rfl, removeLong_nil]
    exact .nil
  | case2 c rest after closed ih =>
    have both := rel_afterLong? h
    rw [closed] at both
    obtain ⟨other, found, related⟩ := exists_of_rel_some both
    rw [removeLong_of_afterLong? found]
    exact ih related
  | case3 c rest none ih =>
    have both := rel_afterLong? h
    rw [none] at both
    cases h with
    | keep _ h =>
      rw [removeLong_cons_of_none (eq_none_of_rel_none both)]
      exact .keep c (ih h)
    | add h =>
      rw [removeLong_cons (not_beginsDashes_of_ne (by decide) _),
        removeLong_cons (not_beginsDashes_of_ne (by decide) _)]
      exact .add (ih h)

/-! ### Line comments -/

/-- The line feed that ends a line comment stays, a carriage return before it goes. -/
theorem returnsAdded_dropLine (h : ReturnsAdded s t) :
    ReturnsAdded (s.dropWhile (· ≠ '\n')) (t.dropWhile (· ≠ '\n')) := by
  induction h with
  | nil => exact .nil
  | keep c h ih =>
    by_cases lineFeed : c = '\n'
    · simpa [lineFeed] using ReturnsAdded.keep '\n' h
    · simpa [lineFeed] using ih
  | add h _ => simpa using ReturnsAdded.keep '\n' h

theorem returnsAdded_removeLine (h : ReturnsAdded s t) :
    ReturnsAdded (removeLine s) (removeLine t) := by
  fun_induction removeLine s generalizing t with
  | case1 =>
    rw [h.nil_iff.mp rfl, removeLine_nil]
    exact .nil
  | case2 rest ih =>
    have oneLine : '\n' ∉ ['-', '-'] := by decide
    obtain ⟨other, rfl, related⟩ := ReturnsAdded.exists_append_mark oneLine h
    show ReturnsAdded _ (removeLine ('-' :: '-' :: other))
    rw [removeLine_dashes]
    exact ih (returnsAdded_dropLine related)
  | case3 c rest apart ih =>
    have fresh : ¬ BeginsDashes (c :: rest) := by
      rintro ⟨tail, whole⟩
      obtain ⟨rfl, rfl⟩ := List.cons.inj whole
      exact apart tail rfl rfl
    cases h with
    | @keep _ _ other h =>
      have otherFresh : ¬ BeginsDashes (c :: other) := by
        rintro ⟨tail, whole⟩
        have both := ReturnsAdded.keep c h
        rw [← whole] at both
        obtain ⟨front, spelled, -⟩ := both.exists_of_append_mark (by decide)
        exact fresh ⟨front, spelled.symm⟩
      rw [removeLine_cons otherFresh]
      exact .keep c (ih h)
    | add h =>
      rw [removeLine_cons (not_beginsDashes_of_ne (by decide) _),
        removeLine_cons (not_beginsDashes_of_ne (by decide) _)]
      exact .add (ih h)

theorem returnsAdded_stripChars (h : ReturnsAdded s t) :
    ReturnsAdded (stripChars s) (stripChars t) :=
  returnsAdded_removeLine (returnsAdded_removeLong h)

end LuaDecl.Comment
