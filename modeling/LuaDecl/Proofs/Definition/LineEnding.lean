import LuaDecl.Proofs.Definition.Captures
import LuaDecl.Proofs.Text.LineEnding
import Mathlib.Data.List.Forall2

/-!
# Definitions and line endings

The search for a shape goes through two texts in step that differ in carriage returns before line
feeds only. Such a carriage return stands in the white space of a definition, where every blank
counts alike, or in its parameters. Main statements: `Shape.readAlike_scan?` for one definition and
`Shape.forall₂_hits` for all of them, in order.
-/

namespace LuaDecl.Definition

open Text

/-- The captures have the same table and name, and the parameters of the second have carriage
returns added. -/
structure Capture.ReturnsAdded (c d : Capture) : Prop where
  table : c.table = d.table
  name : c.name = d.name
  params : Text.ReturnsAdded c.params d.params

/-- What stands before the hit in the one text is related to what stands before the other hit in
the other text, and so are the captures. -/
structure Hit.ReturnsAdded (text other : List Char) (hit twin : Hit) : Prop where
  front : Text.ReturnsAdded (text.take hit.start) (other.take twin.start)
  capture : hit.capture.ReturnsAdded twin.capture

variable {s t : List Char}

/-! ### The steps of a scan -/

theorem rel_blanks? (h : ReturnsAdded s t) : Option.Rel ReturnsAdded (blanks? s) (blanks? t) := by
  cases h with
  | nil => exact .none
  | keep c h =>
    rw [blanks?, blanks?]
    by_cases blank : isBlank c
    · rw [if_pos blank, if_pos blank]
      exact .some h.trimStart
    · rw [if_neg blank, if_neg blank]
      exact .none
  | add h =>
    rw [blanks?, blanks?, if_pos (by decide), if_pos (by decide)]
    exact .some (ReturnsAdded.keep '\n' h).trimStart

/-- A reader that takes a first character of some kind and all the word characters behind it. -/
private theorem readAlike_letters {start : Char → Bool}
    {read : List Char → Option (List Char × List Char)} (empty : read [] = none)
    (letters : ∀ c rest, read (c :: rest) =
      if start c then some (c :: rest.takeWhile isWord, rest.dropWhile isWord) else none)
    (hr : start '\r' = false) (hn : start '\n' = false) (h : ReturnsAdded s t) :
    ReadAlike Eq (read s) (read t) := by
  cases h with
  | nil =>
    rw [empty]
    exact .none
  | keep c h =>
    rw [letters, letters]
    by_cases first : start c
    · rw [if_pos first, if_pos first, h.takeWhile_eq (by decide) (by decide)]
      exact .some ⟨rfl, h.dropWhile (by decide)⟩
    · rw [if_neg first, if_neg first]
      exact .none
  | add h =>
    rw [letters, letters, hr, hn]
    exact .none

theorem readAlike_identifier? (h : ReturnsAdded s t) :
    ReadAlike Eq (identifier? s) (identifier? t) :=
  readAlike_letters rfl (fun _ _ => rfl) (by decide) (by decide) h

theorem readAlike_word? (h : ReturnsAdded s t) : ReadAlike Eq (word? s) (word? t) :=
  readAlike_letters rfl (fun _ _ => rfl) (by decide) (by decide) h

private theorem parenthesized?_paren (s : List Char) :
    parenthesized? ('(' :: s) =
      (after? [')'] (s.dropWhile (· ≠ ')'))).map fun after => (s.takeWhile (· ≠ ')'), after) := by
  simp only [parenthesized?]
  split
  · next after closed =>
    rw [closed]
    rfl
  · next other =>
    cases left : s.dropWhile (· ≠ ')') with
    | nil => rfl
    | cons d tail =>
      have apart : ')' ≠ d := by
        rintro rfl
        exact other tail left
      rw [after?, if_neg apart]
      rfl

theorem readAlike_parenthesized? (h : ReturnsAdded s t) :
    ReadAlike ReturnsAdded (parenthesized? s) (parenthesized? t) := by
  cases h with
  | nil => exact .none
  | add => exact .none
  | @keep c s t h =>
    by_cases opened : c = '('
    · subst opened
      have inside : ReturnsAdded (s.takeWhile (· ≠ ')')) (t.takeWhile (· ≠ ')')) :=
        h.takeWhile (by decide)
      have left : ReturnsAdded (s.dropWhile (· ≠ ')')) (t.dropWhile (· ≠ ')')) :=
        h.dropWhile (by decide)
      rw [parenthesized?_paren, parenthesized?_paren]
      apply rel_map (left.after? (by decide) (by decide))
      intro s t h
      exact ⟨inside, h⟩
    · have unread (s : List Char) : parenthesized? (c :: s) = none := by
        simp [parenthesized?, opened]
      rw [unread, unread]
      exact .none

theorem readAlike_subject? (kind : Kind) (h : ReturnsAdded s t) :
    ReadAlike Eq (subject? kind s) (subject? kind t) := by
  unfold subject?
  apply rel_bind (readAlike_identifier? h)
  rintro ⟨first, s⟩ ⟨_, t⟩ ⟨rfl, h⟩
  cases kind with
  | global => exact .some ⟨rfl, h⟩
  | dot =>
    apply rel_bind (h.after? (by decide) (by decide))
    intro s t h
    apply rel_bind (readAlike_word? h)
    rintro ⟨name, s⟩ ⟨_, t⟩ ⟨rfl, h⟩
    exact .some ⟨rfl, h⟩
  | colon =>
    apply rel_bind (h.after? (by decide) (by decide))
    intro s t h
    apply rel_bind (readAlike_word? h)
    rintro ⟨name, s⟩ ⟨_, t⟩ ⟨rfl, h⟩
    exact .some ⟨rfl, h⟩

theorem readAlike_statement? (kind : Kind) (h : ReturnsAdded s t) :
    ReadAlike Capture.ReturnsAdded (statement? kind s) (statement? kind t) := by
  unfold statement?
  apply rel_bind (h.trimStart.after? (by decide) (by decide))
  intro s t h
  apply rel_bind (rel_blanks? h)
  intro s t h
  apply rel_bind (readAlike_subject? kind h)
  rintro ⟨⟨table, name⟩, s⟩ ⟨_, t⟩ ⟨rfl, h⟩
  apply rel_bind (readAlike_parenthesized? h.trimStart)
  rintro ⟨params, s⟩ ⟨others, t⟩ ⟨inside, h⟩
  exact .some ⟨⟨rfl, rfl, inside⟩, h⟩

theorem readAlike_assignment? (kind : Kind) (h : ReturnsAdded s t) :
    ReadAlike Capture.ReturnsAdded (assignment? kind s) (assignment? kind t) := by
  unfold assignment?
  apply rel_bind (readAlike_subject? kind h.trimStart)
  rintro ⟨⟨table, name⟩, s⟩ ⟨_, t⟩ ⟨rfl, h⟩
  apply rel_bind (h.trimStart.after? (by decide) (by decide))
  intro s t h
  apply rel_bind (h.trimStart.after? (by decide) (by decide))
  intro s t h
  apply rel_bind (readAlike_parenthesized? h.trimStart)
  rintro ⟨params, s⟩ ⟨others, t⟩ ⟨inside, h⟩
  exact .some ⟨⟨rfl, rfl, inside⟩, h⟩

namespace Shape

theorem readAlike_scan? (shape : Shape) (h : ReturnsAdded s t) :
    ReadAlike Capture.ReturnsAdded (shape.scan? s) (shape.scan? t) := by
  cases shape with
  | colonStatement | dotStatement | globalStatement => exact readAlike_statement? _ h
  | dotAssignment | globalAssignment => exact readAlike_assignment? _ h

/-! ### The search -/

/-- The search goes on alike behind related texts. -/
theorem forall₂_hitsFrom (shape : Shape) {a b : List Char} (before : ReturnsAdded a b)
    (h : ReturnsAdded s t) (atLineStart : Bool) :
    List.Forall₂ (Hit.ReturnsAdded (a ++ s) (b ++ t)) (shape.hitsFrom a.length atLineStart s)
      (shape.hitsFrom b.length atLineStart t) := by
  generalize start : a.length = position
  fun_induction hitsFrom shape position atLineStart s generalizing a b t with
  | case1 =>
    rw [h.nil_iff.mp rfl]
    simp [hitsFrom]
  | case2 position atLineStart c rest capture after scanned stop =>
    rename_i ih
    cases atLineStart with
    | false => simp at scanned
    | true =>
      rw [dif_pos rfl] at scanned
      have both := shape.readAlike_scan? h
      rw [scanned] at both
      obtain ⟨⟨twin, later⟩, found, captures, -⟩ := exists_of_rel_some both
      obtain ⟨front, spelled, once⟩ := exists_closed_of_scan? scanned
      obtain ⟨back, rfl, onceTwin⟩ := exists_closed_of_scan? found
      rw [spelled] at h ⊢
      -- Both definitions end with the first closing parenthesis of their texts.
      obtain ⟨fronts, rests⟩ := h.halves (by decide) (by decide) once onceTwin
      have closed : ReturnsAdded (a ++ (front ++ [')'])) (b ++ (back ++ [')'])) :=
        before.append (fronts.append (.keep ')' .nil))
      have stops : (a ++ (front ++ [')'])).length =
          position + ((front ++ ')' :: after).length - after.length) := by
        simp only [List.length_append, List.length_cons, List.length_nil]
        omega
      have stopsTwin : (b ++ (back ++ [')'])).length =
          b.length + ((back ++ ')' :: later).length - later.length) := by
        simp only [List.length_append, List.length_cons, List.length_nil]
        omega
      rw [← spelled] at stops
      have tail := ih closed rests stops
      rw [hitsFrom_of_scan? found, ← stopsTwin]
      apply List.Forall₂.cons
      · refine ⟨?_, captures⟩
        rw [← start, List.take_left, List.take_left]
        exact before
      · simpa using tail
  | case3 position atLineStart c rest scanned ih =>
    have fails : atLineStart = true → shape.scan? (c :: rest) = none := by
      rintro rfl
      rwa [dif_pos rfl] at scanned
    have failsTwin : atLineStart = true → shape.scan? t = none := by
      intro start
      have both := shape.readAlike_scan? h
      rw [fails start] at both
      exact eq_none_of_rel_none both
    cases h with
    | keep _ h =>
      have later := ih (before.append (.keep c .nil)) h (by simp [start])
      rw [List.length_append, List.append_assoc, List.append_assoc] at later
      rw [hitsFrom_cons failsTwin]
      exact later
    | add h =>
      -- No line starts behind the carriage return, so the second search goes on to the line feed.
      have later := ih (before.append (.add .nil)) h (by simp [start])
      rw [List.length_append, List.append_assoc, List.append_assoc] at later
      rw [hitsFrom_cons failsTwin, hitsFrom_cons (by simp)]
      exact later

theorem forall₂_hits (shape : Shape) (h : ReturnsAdded s t) :
    List.Forall₂ (Hit.ReturnsAdded s t) (shape.hits s) (shape.hits t) :=
  shape.forall₂_hitsFrom .nil h true

end Shape

end LuaDecl.Definition
