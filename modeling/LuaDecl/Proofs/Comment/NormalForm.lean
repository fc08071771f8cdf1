import LuaDecl.Proofs.Comment.Dashes
import LuaDecl.Proofs.Comment.Lexer
import LuaDecl.Proofs.Comment.Segments
import LuaDecl.Proofs.Text.Pieces

/-!
# Texts without comments

The removal of comments leaves a normal form: a text without double dashes, which a second removal
leaves as it is. It takes characters away and no line feed outside long comments, because the
removal of line comments works on each line for itself (`pieces_removeLine`). Main statement:
`strip_isNormal`.
-/

namespace LuaDecl.Comment

open Text

/-- The part of a line in front of its first two dashes, which is all of it if it has none. -/
def beforeDashes (line : List Char) : List Char :=
  match cut? ['-', '-'] line with
  | some (before, _) => before
  | none => line

theorem beforeDashes_dashes (rest : List Char) : beforeDashes ('-' :: '-' :: rest) = [] := by
  have here : cut? ['-', '-'] ('-' :: '-' :: rest) = some ([], rest) := by
    rw [cut?_eq_some_iff]
    exact ⟨rfl, firstBehind_nil⟩
  rw [beforeDashes, here]

theorem beforeDashes_cons {c : Char} {line : List Char} (h : ¬ BeginsDashes (c :: line)) :
    beforeDashes (c :: line) = c :: beforeDashes line := by
  have apart : after? ['-', '-'] (c :: line) = none := after?_eq_none_iff.mpr h
  rw [beforeDashes, beforeDashes, cut?, apart]
  cases cut? ['-', '-'] line <;> rfl

theorem isPrefix_beforeDashes (line : List Char) : beforeDashes line <+: line := by
  unfold beforeDashes
  split
  · next before after found =>
    rw [append_of_cut? found, List.append_assoc]
    exact List.prefix_append before _
  · exact List.prefix_rfl

/-! ### Line by line -/

/-- Two dashes at the front of a line stand before its end. -/
theorem beginsDashes_append_iff {line after : List Char} (ends : EndsLine after) :
    BeginsDashes (line ++ after) ↔ BeginsDashes line := by
  constructor
  · exact prefix_of_endsLine (by decide) ends
  · intro dashes
    exact dashes.trans (List.prefix_append line after)

theorem removeLine_line {line after : List Char} (oneLine : '\n' ∉ line) (ends : EndsLine after) :
    removeLine (line ++ after) = beforeDashes line ++ removeLine after := by
  induction line with
  | nil => rfl
  | cons c line ih =>
    by_cases dashes : BeginsDashes (c :: line)
    · obtain ⟨rfl, rest, rfl⟩ := beginsDashes_cons_iff.mp dashes
      have short : '\n' ∉ rest := by
        intro member
        exact oneLine (by simp [member])
      rw [List.cons_append, List.cons_append, removeLine_dashes,
        dropWhile_append_of_endsLine short ends, beforeDashes_dashes, List.nil_append]
    · have apart : ¬ BeginsDashes (c :: (line ++ after)) := by
        rw [← List.cons_append, beginsDashes_append_iff ends]
        exact dashes
      rw [List.cons_append, removeLine_cons apart, ih (List.not_mem_of_not_mem_cons oneLine),
        beforeDashes_cons dashes, List.cons_append]

theorem removeLine_joinPieces {lines : List (List Char)} (free : ∀ line ∈ lines, '\n' ∉ line) :
    removeLine (joinPieces '\n' lines) = joinPieces '\n' (lines.map beforeDashes) := by
  induction lines with
  | nil => exact removeLine_nil
  | cons line lines ih =>
    obtain ⟨first, others⟩ := List.forall_mem_cons.mp free
    cases lines with
    | nil =>
      have alone := removeLine_line first (Or.inl rfl)
      rwa [List.append_nil, removeLine_nil, List.append_nil] at alone
    | cons next lines =>
      have lineFeed : ¬ BeginsDashes ('\n' :: joinPieces '\n' (next :: lines)) :=
        not_beginsDashes_of_ne (by decide) _
      rw [joinPieces, removeLine_line first (Or.inr ⟨_, rfl⟩), removeLine_cons lineFeed, ih others]
      · rfl
      · simp

/-- The lines of a text without its line comments are its own lines in front of their dashes. -/
theorem pieces_removeLine (s : List Char) :
    pieces '\n' (removeLine s) = (pieces '\n' s).map beforeDashes := by
  have free : ∀ line ∈ (pieces '\n' s).map beforeDashes, '\n' ∉ line := by
    intro line member
    obtain ⟨whole, inside, rfl⟩ := List.mem_map.mp member
    intro lineFeed
    exact not_mem_of_mem_pieces inside ((isPrefix_beforeDashes whole).subset lineFeed)
  have nonempty : (pieces '\n' s).map beforeDashes ≠ [] := by
    simpa using pieces_ne_nil '\n' s
  calc pieces '\n' (removeLine s)
      = pieces '\n' (removeLine (joinPieces '\n' (pieces '\n' s))) := by rw [joinPieces_pieces]
    _ = pieces '\n' (joinPieces '\n' ((pieces '\n' s).map beforeDashes)) := by
      rw [removeLine_joinPieces fun _ => not_mem_of_mem_pieces]
    _ = (pieces '\n' s).map beforeDashes := pieces_joinPieces nonempty free

/-- The removal of line comments takes no line feed away. -/
theorem count_removeLine (s : List Char) : (removeLine s).count '\n' = s.count '\n' := by
  have lines := congrArg List.length (pieces_removeLine s)
  rw [List.length_map, length_pieces, length_pieces] at lines
  omega

/-! ### What is taken away -/

theorem removeLong_sublist (s : List Char) : (removeLong s).Sublist s := by
  fun_induction removeLong s with
  | case1 => exact List.Sublist.refl []
  | case2 c rest after h ih =>
    obtain ⟨level, body, whole⟩ := exists_of_afterLong? h
    rw [whole]
    exact ih.trans (List.sublist_append_right _ after)
  | case3 c rest h ih => exact ih.cons_cons c

theorem removeLine_sublist (s : List Char) : (removeLine s).Sublist s := by
  fun_induction removeLine s with
  | case1 => exact List.Sublist.refl []
  | case2 rest ih =>
    have later : (rest.dropWhile (· ≠ '\n')).Sublist rest := (List.dropWhile_suffix _).sublist
    exact ((ih.trans later).cons '-').cons '-'
  | case3 c rest h ih => exact ih.cons_cons c

theorem stripChars_sublist (s : List Char) : (stripChars s).Sublist s :=
  (removeLine_sublist (removeLong s)).trans (removeLong_sublist s)

/-! ### What is left as it is -/

theorem removeLong_of_uncommented {s : List Char} (h : Uncommented s) : removeLong s = s := by
  induction s with
  | nil => exact removeLong_nil
  | cons c s ih =>
    obtain ⟨first, tail⟩ := uncommented_cons_iff.mp h
    rw [removeLong_cons first, ih tail]

theorem removeLine_of_uncommented {s : List Char} (h : Uncommented s) : removeLine s = s := by
  induction s with
  | nil => exact removeLine_nil
  | cons c s ih =>
    obtain ⟨first, tail⟩ := uncommented_cons_iff.mp h
    rw [removeLine_cons first, ih tail]

/-- What the removal of comments leaves as it is are the texts without double dashes. -/
theorem stripChars_eq_self_iff {s : List Char} : stripChars s = s ↔ Uncommented s := by
  constructor
  · intro same
    rw [← same]
    exact uncommented_stripChars s
  · intro plain
    rw [stripChars, removeLong_of_uncommented plain, removeLine_of_uncommented plain]

theorem toList_strip (source : String) : (strip source).toList = stripChars source.toList := by
  rw [strip, String.toList_ofList]

theorem strip_eq_self_iff {source : String} :
    strip source = source ↔ Uncommented source.toList := by
  rw [← String.toList_inj, toList_strip, stripChars_eq_self_iff]

/-- The removal of comments leaves a normal form. Nothing is left of any double dashes, what is left
stands in the text in this order, all line feeds outside long comments are left, and each line is
what the first pass leaves of it up to its first two dashes. The texts without double dashes, and no
others, are left as they are, so another removal changes nothing. -/
theorem strip_isNormal (source : String) :
    Uncommented (strip source).toList ∧
      (strip source).toList.Sublist source.toList ∧
      (∃ x, Separates source.toList x ∧
        (strip source).toList.count '\n' = x.kept.count '\n') ∧
      pieces '\n' (strip source).toList =
        (pieces '\n' (removeLong source.toList)).map beforeDashes ∧
      (strip source = source ↔ Uncommented source.toList) ∧
      strip (strip source) = strip source := by
  have plain : Uncommented (strip source).toList := by
    rw [toList_strip]
    exact uncommented_stripChars source.toList
  refine ⟨plain, ?_, ?_, ?_, strip_eq_self_iff, strip_eq_self_iff.mpr plain⟩
  · rw [toList_strip]
    exact stripChars_sublist source.toList
  · have reads := separates_iff (s := source.toList).mpr rfl
    refine ⟨_, reads, ?_⟩
    rw [toList_strip, stripChars, count_removeLine, reads.removeLong]
  · rw [toList_strip, stripChars, pieces_removeLine]

end LuaDecl.Comment
