import LuaDecl.Proofs.Comment.LineEnding
import LuaDecl.Proofs.Comment.NormalForm
import LuaDecl.Proofs.Definition.LineEnding
import LuaDecl.Proofs.Extraction.Exclusion
import Mathlib.Data.List.Infix

/-!
# Line endings do not matter

A source whose lines end with a carriage return and a line feed has the signatures of the source
whose lines end with line feeds alone, up to carriage returns in the parameters. The only place
where a carriage return takes room is the window in which `local` is looked for, so the lines may
not have more than thirteen blanks behind that word. Main statement: `ofSource_withReturns`.
-/

namespace LuaDecl

open Definition Text

/-! ### Parameters -/

namespace Parameters

variable {s t : List Char}

theorem isUninformative_eq_false_of_mem (h : '\n' ∈ s) : isUninformative s = false := by
  have lower : '\n' ∈ s.map Char.toLower := List.mem_map.mpr ⟨'\n', h, by decide⟩
  have apart {word : List Char} (free : '\n' ∉ word) : s ≠ word := by
    rintro rfl
    exact free h
  have apartLower : s.map Char.toLower ≠ ['s', 'e', 'l', 'f'] := by
    intro same
    rw [same] at lower
    exact absurd lower (by decide)
  simp [isUninformative, apart (by decide : '\n' ∉ ([] : List Char)),
    apart (by decide : '\n' ∉ variadic), apartLower, apart (by decide : '\n' ∉ ['_'])]

theorem isUninformative_eq (h : ReturnsAdded s t) : isUninformative s = isUninformative t := by
  by_cases lineFeed : '\n' ∈ s
  · have other : '\n' ∈ t := (h.mem_iff (by decide)).mp lineFeed
    rw [isUninformative_eq_false_of_mem lineFeed, isUninformative_eq_false_of_mem other]
  · rw [h.eq_of_not_mem lineFeed]

theorem returnsAdded_normalizeChars (h : ReturnsAdded s t) :
    ReturnsAdded (normalizeChars s) (normalizeChars t) := by
  rw [normalizeChars, normalizeChars, isUninformative_eq h.trim]
  by_cases uninformative : isUninformative (trim t)
  · rw [if_pos uninformative, if_pos uninformative]
    exact .refl variadic
  · rw [if_neg uninformative, if_neg uninformative]
    exact h.trim

end Parameters

/-- The signature without the carriage returns in its parameters. -/
def Signature.withoutReturns (s : Signature) : Signature :=
  { s with params := String.ofList (Text.withoutReturns s.params.toList) }

namespace Extraction

/-! ### The window -/

/-- Behind `local` stand at most thirteen blanks on its line. -/
def GapsAreShort (s : List Char) : Prop :=
  ∀ gap, Blanks gap → '\n' ∉ gap → localKeyword ++ gap <:+: s → gap.length < 14

/-- The character is a blank inside a line. -/
def isGap (c : Char) : Bool :=
  isBlank c && c != '\n'

theorem gapsAreShort_iff {s : List Char} :
    GapsAreShort s ↔
      ∀ tail ∈ s.tails, ∀ rest ∈ after? localKeyword tail, (rest.takeWhile isGap).length < 14 := by
  constructor
  · intro short tail member rest found
    have suffix : tail <:+ s := (List.mem_tails _ _).mp member
    rw [after?_eq_some_iff.mp found] at suffix
    have taken : ∀ c ∈ rest.takeWhile isGap, isGap c = true :=
      List.all_eq_true.mp List.all_takeWhile
    apply short
    · intro c inside
      exact (Bool.and_eq_true_iff.mp (taken c inside)).1
    · intro inside
      exact absurd (taken '\n' inside) (by decide)
    · have front : localKeyword ++ rest.takeWhile isGap <+: localKeyword ++ rest :=
        (List.prefix_append_right_inj _).mpr (List.takeWhile_prefix isGap)
      exact front.isInfix.trans suffix.isInfix
  · rintro short gap blanks oneLine ⟨a, b, whole⟩
    have gaps : ∀ c ∈ gap, isGap c = true := by
      intro c inside
      have visible : c ≠ '\n' := by
        rintro rfl
        exact oneLine inside
      simp [isGap, blanks c inside, visible]
    have suffix : localKeyword ++ (gap ++ b) <:+ s := ⟨a, by rw [← whole]; simp⟩
    have within :=
      short _ ((List.mem_tails _ _).mpr suffix) (gap ++ b) (after?_append localKeyword _)
    rw [List.takeWhile_append_of_pos gaps, List.length_append] at within
    omega

instance : DecidablePred GapsAreShort :=
  fun _ => decidable_of_iff _ gapsAreShort_iff.symm

/-- The line of `local` has the same blanks in both texts but for one, which a short gap has room
for. -/
theorem endsWithLocal_eq {text other : List Char} (short : GapsAreShort text) {shape : Shape}
    {hit twin : Hit} (found : hit ∈ shape.hits text) (foundTwin : twin ∈ shape.hits other)
    (related : hit.ReturnsAdded text other twin) :
    endsWithLocal (text.take hit.start) = endsWithLocal (other.take twin.start) := by
  rw [Bool.eq_iff_iff, endsWithLocal_take_start_iff found, endsWithLocal_take_start_iff foundTwin]
  have fronts := related.front
  constructor
  · rintro ⟨gap, blanks, oneLine, -, front, whole⟩
    have within : gap.length < 14 := by
      apply short gap blanks oneLine
      have part : localKeyword ++ gap <:+: text.take hit.start := ⟨front, ['\n'], by simp [← whole]⟩
      exact part.trans (List.take_prefix hit.start text).isInfix
    have keywordLine : '\n' ∉ localKeyword ++ gap := by
      rw [List.mem_append, not_or]
      exact ⟨by decide, oneLine⟩
    rw [← whole] at fronts
    obtain ⟨before, line, split, -, ends⟩ := fronts.exists_append
    obtain ⟨rest, nothing, kept | added⟩ :=
      ReturnsAdded.exists_append_lineFeed keywordLine ends
    · refine ⟨gap, blanks, oneLine, by omega, before, ?_⟩
      rw [split, kept, nothing.nil_iff.mp rfl]
    · refine ⟨gap ++ ['\r'], ?_, ?_, ?_, before, ?_⟩
      · exact blanks_append_iff.mpr ⟨blanks, by simp [Blanks]; decide⟩
      · simp [oneLine]
      · rw [List.length_append, List.length_singleton]
        omega
      · rw [split, added, nothing.nil_iff.mp rfl]
        simp
  · rintro ⟨gap, blanks, oneLine, room, front, whole⟩
    have spelled :
        localKeyword ++ gap ++ ['\n'] = 'l' :: (['o', 'c', 'a', 'l'] ++ (gap ++ ['\n'])) := rfl
    have plain : '\r' ∉ ['o', 'c', 'a', 'l'] := by decide
    rw [← whole, spelled] at fronts
    obtain ⟨before, tail, split, -, behind⟩ :=
      fronts.exists_of_append_cons (by decide) (by decide)
    obtain ⟨line, rfl, ends⟩ := ReturnsAdded.exists_of_append_mark plain behind
    obtain ⟨own, rest, rfl, nothing, line⟩ := ReturnsAdded.exists_of_append_lineFeed oneLine ends
    obtain rfl := nothing.nil_iff.mpr rfl
    have part : own <+: gap := by
      rcases line with same | longer
      · rw [same]
      · rw [longer]
        exact List.prefix_append own ['\r']
    refine ⟨own, ?_, ?_, part.length_le.trans room, before, ?_⟩
    · intro c inside
      exact blanks c (part.subset inside)
    · intro inside
      exact oneLine (part.subset inside)
    · rw [split]
      rfl

/-! ### Signatures -/

theorem withoutReturns_signature (shape : Shape) {text other : List Char} {hit twin : Hit}
    (h : hit.ReturnsAdded text other twin) :
    (signature shape hit).withoutReturns = (signature shape twin).withoutReturns := by
  have params := (Parameters.returnsAdded_normalizeChars h.capture.params).withoutReturns_eq
  simp only [Signature.withoutReturns, signature, String.toList_ofList, h.capture.table,
    h.capture.name, params]

private theorem forall₂_mem {α β : Type} {r : α → β → Prop} {l : List α} {u : List β}
    (h : List.Forall₂ r l u) : List.Forall₂ (fun a b => a ∈ l ∧ b ∈ u ∧ r a b) l u := by
  have right : List.Forall₂ (fun b a => b ∈ u ∧ r a b) u l :=
    (List.forall₂_and_left _ _).mpr ⟨fun _ member => member, List.Forall₂.flip h⟩
  exact (List.forall₂_and_left _ _).mpr ⟨fun _ member => member, List.Forall₂.flip right⟩

/-- A shape contributes the same signatures to both texts. Whether a global is private depends on
the place of its hit, so the hits are compared before the signatures are. -/
theorem map_withoutReturns_ofShape {text other : List Char} (short : GapsAreShort text)
    (h : ReturnsAdded text other) (shape : Shape) :
    (ofShape text shape).map Signature.withoutReturns =
      (ofShape other shape).map Signature.withoutReturns := by
  have members := forall₂_mem (shape.forall₂_hits h)
  have shown : List.Forall₂ (fun hit twin => hit.ReturnsAdded text other twin)
      ((shape.hits text).filter fun hit => !isPrivate text shape hit)
      ((shape.hits other).filter fun twin => !isPrivate other shape twin) := by
    apply (List.rel_filter ?_ members).imp
    · rintro hit twin ⟨-, -, h⟩
      exact h
    · rintro hit twin ⟨found, foundTwin, h⟩
      simp only [isPrivate, endsWithLocal_eq short found foundTwin h]
  rw [ofShape, ofShape, List.map_map, List.map_map, ← List.forall₂_eq_eq_eq,
    List.forall₂_map_left_iff, List.forall₂_map_right_iff]
  apply shown.imp
  intro hit twin h
  exact withoutReturns_signature shape h

/-- A source has the same tables and the same signatures, in order and up to carriage returns in the
parameters, with a carriage return before each line feed as without. Carriage returns that the
source has of its own do no harm. -/
theorem ofSource_withReturns (source : String)
    (short : GapsAreShort (Comment.strip source).toList) :
    let other := String.ofList (withReturns source.toList)
    (ofSource other).tables = (ofSource source).tables ∧
      (ofSource other).signatures.map Signature.withoutReturns =
        (ofSource source).signatures.map Signature.withoutReturns := by
  intro other
  have stripped : ReturnsAdded (Comment.strip source).toList (Comment.strip other).toList := by
    rw [Comment.toList_strip, Comment.toList_strip, String.toList_ofList]
    exact Comment.returnsAdded_stripChars (.withReturns source.toList)
  have signatures : (ofSource other).signatures.map Signature.withoutReturns =
      (ofSource source).signatures.map Signature.withoutReturns := by
    show (Shape.all.flatMap _).map _ = (Shape.all.flatMap _).map _
    rw [List.map_flatMap, List.map_flatMap]
    apply List.flatMap_congr
    intro shape _
    exact (map_withoutReturns_ofShape short stripped shape).symm
  refine ⟨?_, signatures⟩
  have tables (signatures : List Signature) : signatures.filterMap Signature.table =
      (signatures.map Signature.withoutReturns).filterMap Signature.table := by
    rw [List.filterMap_map]
    rfl
  show SortedSet.ofList ((ofSource other).signatures.filterMap Signature.table) =
    SortedSet.ofList ((ofSource source).signatures.filterMap Signature.table)
  rw [tables (ofSource other).signatures, tables (ofSource source).signatures, signatures]

/-- One definition is hidden, one has parameters on two lines, and one stands behind a comment. -/
theorem ofSource_withReturns_mixed :
    let source := "local  \nf = function() end\nfunction g(a,\n  b) end -- c\nt.x = function() end"
    let other := String.ofList (withReturns source.toList)
    GapsAreShort (Comment.strip source).toList ∧
      (ofSource other).tables = (ofSource source).tables ∧
      (ofSource other).signatures.map Signature.withoutReturns =
        (ofSource source).signatures.map Signature.withoutReturns ∧
      (ofSource source).signatures =
        [⟨.global, none, "g", "a,\n  b"⟩, ⟨.dot, some "t", "x", "..."⟩] := by
  intro source other
  have short : GapsAreShort (Comment.strip source).toList := by decide +kernel
  obtain ⟨tables, signatures⟩ := ofSource_withReturns source short
  exact ⟨short, tables, signatures, by decide +kernel⟩

/-- Behind fourteen blanks a carriage return takes `local` out of sight. -/
example :
    let source := "local              \nf = function() end"
    (ofSource source).isEmpty = true ∧
      (ofSource (String.ofList (withReturns source.toList))).isEmpty = false := by
  decide +kernel

end Extraction

end LuaDecl
