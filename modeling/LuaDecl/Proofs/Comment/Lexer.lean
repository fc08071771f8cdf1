import LuaDecl.Proofs.Comment.Dashes
import LuaDecl.Proofs.Comment.Decomposition

/-!
# Reading comments in one pass

The comments of a text as a lexer finds them that goes through it once: at two dashes stands a
closed long comment, if one begins there, and a line comment otherwise. There is one such reading
(`lexes_iff`). The removal of comments goes through the text twice, and long comments come first,
also where they stand in a line comment. Unless a line comment hides the opener of a long comment,
both ways leave the same characters (`strip_eq_lexed`).
-/

namespace LuaDecl.Comment

open Text

/-! ### The lexer -/

/-- What a lexer finds in a text: a character, a closed long comment, or the text of a line comment
from its dashes on. -/
inductive Token where
  | kept (c : Char)
  | long (level : Nat) (body : List Char)
  | line (comment : List Char)
  deriving DecidableEq, Repr

/-- The characters that a token leaves. -/
def Token.rest : Token → List Char
  | kept c => [c]
  | long _ _ | line _ => []

/-- The tokens of a text from left to right. -/
inductive Lexes : List Char → List Token → Prop where
  | nil : Lexes [] []
  | long {level body after tokens} : FirstBehind (longClose level) body → Lexes after tokens →
      Lexes (longOpen level ++ body ++ longClose level ++ after) (.long level body :: tokens)
  | line {body after tokens} : NoLongComment ('-' :: '-' :: (body ++ after)) → '\n' ∉ body →
      EndsLine after → Lexes after tokens →
      Lexes ('-' :: '-' :: (body ++ after)) (.line ('-' :: '-' :: body) :: tokens)
  | keep {c s tokens} : ¬ BeginsDashes (c :: s) → Lexes s tokens →
      Lexes (c :: s) (.kept c :: tokens)

/-- A line comment that has the opener of a long comment behind its first character. -/
def HidesOpener (comment : List Char) : Prop :=
  ['-', '-', '['] <:+: comment.tail

instance : DecidablePred BeginsDashes :=
  fun s => inferInstanceAs (Decidable (['-', '-'] <+: s))

instance : DecidablePred HidesOpener :=
  fun comment => inferInstanceAs (Decidable (['-', '-', '['] <:+: comment.tail))

/-- The tokens of a text. -/
def lex (s : List Char) : List Token :=
  match s with
  | [] => []
  | c :: rest =>
    match _h : longComment? (c :: rest) with
    | some (level, body, after) => .long level body :: lex after
    | none =>
      if BeginsDashes (c :: rest) then
        .line (c :: rest.takeWhile (· ≠ '\n')) :: lex (rest.dropWhile (· ≠ '\n'))
      else .kept c :: lex rest
termination_by s.length
decreasing_by
  · exact length_lt_of_longComment? ‹_›
  · have := (List.dropWhile_suffix (l := rest) (· ≠ '\n')).length_le
    simp only [List.length_cons]
    omega
  · simp

/-! ### One reading of every text -/

theorem endsLine_dropWhile (s : List Char) : EndsLine (s.dropWhile (· ≠ '\n')) := by
  induction s with
  | nil => exact Or.inl rfl
  | cons c s ih =>
    by_cases h : c = '\n'
    · exact Or.inr ⟨s, by simp [h]⟩
    · simpa [h] using ih

theorem lineFeed_not_mem_takeWhile (s : List Char) : '\n' ∉ s.takeWhile (· ≠ '\n') := by
  intro member
  have passed := List.all_eq_true.mp (List.all_takeWhile (p := (· ≠ '\n')) (l := s)) '\n' member
  simp at passed

theorem longComment?_eq_none_of_not_beginsDashes {s : List Char} (h : ¬ BeginsDashes s) :
    longComment? s = none := by
  rw [longComment?_eq_none_iff]
  rintro level body after rfl
  exact h ⟨_, by simp [longOpen]; rfl⟩

theorem lexes_lex (s : List Char) : Lexes s (lex s) := by
  fun_induction lex s with
  | case1 => exact .nil
  | case2 c rest level body after h ih =>
    obtain ⟨spelled, first⟩ := longComment?_eq_some_iff.mp h
    rw [spelled]
    exact .long first ih
  | case3 c rest h dashes ih =>
    obtain ⟨rfl, tail, rfl⟩ := beginsDashes_cons_iff.mp dashes
    have fresh := longComment?_eq_none_iff.mp h
    simp only [ne_eq, Char.reduceEq, not_false_eq_true, decide_true,
      List.takeWhile_cons_of_pos, List.dropWhile_cons_of_pos] at ih ⊢
    have whole : tail.takeWhile (· ≠ '\n') ++ tail.dropWhile (· ≠ '\n') = tail :=
      List.takeWhile_append_dropWhile
    rw [← whole] at fresh
    have plain : NoLongComment
        ('-' :: '-' :: (tail.takeWhile (· ≠ '\n') ++ tail.dropWhile (· ≠ '\n'))) := fresh
    have read := Lexes.line plain (lineFeed_not_mem_takeWhile tail) (endsLine_dropWhile tail) ih
    simpa using read
  | case4 c rest h plain ih => exact .keep plain ih

theorem lex_of_longComment? {s body after : List Char} {level : Nat}
    (h : longComment? s = some (level, body, after)) : lex s = .long level body :: lex after := by
  cases s with
  | nil => simp [longComment?, longOpener?] at h
  | cons c rest =>
    rw [lex]
    split
    · next h' => rw [h] at h'; cases h'; rfl
    · next h' => rw [h] at h'; cases h'

theorem lex_of_none {c : Char} {rest : List Char} (h : longComment? (c :: rest) = none) :
    lex (c :: rest) =
      if BeginsDashes (c :: rest) then
        .line (c :: rest.takeWhile (· ≠ '\n')) :: lex (rest.dropWhile (· ≠ '\n'))
      else .kept c :: lex rest := by
  rw [lex]
  split
  · next h' => rw [h] at h'; cases h'
  · rfl

/-- A text is read in one way. -/
theorem lexes_iff {s : List Char} {tokens : List Token} : Lexes s tokens ↔ tokens = lex s := by
  constructor
  · intro h
    induction h with
    | nil => rw [lex]
    | long first _ ih => rw [lex_of_longComment? (longComment?_eq_some_iff.mpr ⟨rfl, first⟩), ih]
    | @line body after tokens fresh oneLine ends _ ih =>
      have dashes : BeginsDashes ('-' :: '-' :: (body ++ after)) := ⟨body ++ after, rfl⟩
      have whole : '\n' ∉ '-' :: body := by simp [oneLine]
      have taken := takeWhile_append_of_endsLine whole ends
      have left := dropWhile_append_of_endsLine whole ends
      rw [List.cons_append] at taken left
      rw [lex_of_none (longComment?_eq_none_iff.mpr fresh), if_pos dashes, taken, left, ih]
    | keep plain _ ih =>
      rw [lex_of_none (longComment?_eq_none_of_not_beginsDashes plain), if_neg plain, ih]
  · rintro rfl
    exact lexes_lex s

/-! ### Both ways -/

/-- Where no long comment begins, the removal of long comments passes over the text. -/
theorem removeLong_append_of_quiet {a s : List Char}
    (quiet : ∀ t, t <:+ a → t ≠ [] → afterLong? (t ++ s) = none) :
    removeLong (a ++ s) = a ++ removeLong s := by
  induction a with
  | nil => rfl
  | cons c a ih =>
    have first := quiet (c :: a) List.suffix_rfl (by simp)
    have rest : ∀ t, t <:+ a → t ≠ [] → afterLong? (t ++ s) = none := by
      intro t part
      exact quiet t (part.trans (List.suffix_cons c a))
    rw [List.cons_append] at first
    rw [List.cons_append, removeLong_cons_of_none first, ih rest, List.cons_append]

/-- An opener at the front of a line stands before its end. -/
theorem prefix_of_endsLine {opener a after : List Char} (oneLine : '\n' ∉ opener)
    (ends : EndsLine after) (front : opener <+: a ++ after) : opener <+: a := by
  rcases ends with rfl | ⟨rest, rfl⟩
  · simpa using front
  · exact prefix_of_prefix_append_cons oneLine front

theorem exists_opener_of_afterLong? {s after : List Char} (h : afterLong? s = some after) :
    ['-', '-', '['] <+: s := by
  obtain ⟨level, body, rfl⟩ := exists_of_afterLong? h
  exact ⟨List.replicate level '=' ++ '[' :: body ++ longClose level ++ after, by simp [longOpen]⟩

/-- A line comment that hides no opener is passed over by the removal of long comments. -/
theorem removeLong_lineComment {body after : List Char}
    (fresh : NoLongComment ('-' :: '-' :: (body ++ after))) (ends : EndsLine after)
    (plain : ¬ HidesOpener ('-' :: '-' :: body)) :
    removeLong ('-' :: '-' :: (body ++ after)) = '-' :: '-' :: (body ++ removeLong after) := by
  have quiet : ∀ t, t <:+ '-' :: '-' :: body → t ≠ [] → afterLong? (t ++ after) = none := by
    intro t part nonempty
    rcases List.suffix_cons_iff.mp part with rfl | inner
    · exact afterLong?_eq_none_iff.mpr fresh
    · cases found : afterLong? (t ++ after) with
      | none => rfl
      | some rest =>
        have front := exists_opener_of_afterLong? found
        have opener : ['-', '-', '['] <+: t := prefix_of_endsLine (by decide) ends front
        exact absurd (opener.isInfix.trans inner.isInfix) plain
  exact removeLong_append_of_quiet quiet

theorem EndsLine.removeLong {s : List Char} (h : EndsLine s) : EndsLine (removeLong s) := by
  rcases h with rfl | ⟨rest, rfl⟩
  · exact Or.inl removeLong_nil
  · have kept := removeLong_cons (not_beginsDashes_of_ne (by decide : '\n' ≠ '-') rest)
    exact Or.inr ⟨Comment.removeLong rest, kept⟩

/-- The removal of long comments does not join two dashes: what follows a dash that begins none
follows it still. -/
theorem not_beginsDashes_removeLong {c : Char} {s : List Char} (h : ¬ BeginsDashes (c :: s)) :
    ¬ BeginsDashes (c :: removeLong s) := by
  rw [beginsDashes_cons_iff] at h ⊢
  rintro ⟨rfl, rest, left⟩
  cases s with
  | nil => simp [removeLong_nil] at left
  | cons d s =>
    have different : d ≠ '-' := by
      rintro rfl
      exact h ⟨rfl, s, rfl⟩
    rw [removeLong_cons (not_beginsDashes_of_ne different s)] at left
    exact different (List.cons.inj left).1

theorem Lexes.stripChars {s : List Char} {tokens : List Token} (h : Lexes s tokens)
    (plain : ∀ comment, Token.line comment ∈ tokens → ¬ HidesOpener comment) :
    stripChars s = tokens.flatMap Token.rest := by
  induction h with
  | nil => exact stripChars_nil
  | @long level body after tokens first _ ih =>
    have rest : Comment.stripChars after = tokens.flatMap Token.rest :=
      ih fun comment member => plain comment (List.mem_cons_of_mem _ member)
    rw [Comment.stripChars, removeLong_of_afterLong? (afterLong?_of_firstBehind first after)]
    exact rest
  | @line body after tokens fresh oneLine ends _ ih =>
    have rest : Comment.stripChars after = tokens.flatMap Token.rest :=
      ih fun comment member => plain comment (List.mem_cons_of_mem _ member)
    rw [Comment.stripChars, removeLong_lineComment fresh ends (plain _ List.mem_cons_self),
      removeLine_dashes, dropWhile_append_of_endsLine oneLine ends.removeLong]
    exact rest
  | @keep c s tokens noDashes _ ih =>
    have rest : Comment.stripChars s = tokens.flatMap Token.rest :=
      ih fun comment member => plain comment (List.mem_cons_of_mem _ member)
    rw [Comment.stripChars, removeLong_cons noDashes,
      removeLine_cons (not_beginsDashes_removeLong noDashes)]
    exact congrArg (c :: ·) rest

/-- The removal of comments in two passes leaves what a lexer leaves that goes through the text
once, unless one of its line comments hides the opener of a long comment. -/
theorem strip_eq_lexed (source : String) :
    ∃ tokens, (∀ other, Lexes source.toList other ↔ other = tokens) ∧
      ((∀ comment, Token.line comment ∈ tokens → ¬ HidesOpener comment) →
        strip source = String.ofList (tokens.flatMap Token.rest)) := by
  refine ⟨lex source.toList, fun other => lexes_iff, ?_⟩
  intro plain
  rw [strip, (lexes_lex source.toList).stripChars plain]

/-- A long comment with a close of another level in it, and a line comment that begins like a long
one but is not closed. -/
theorem strip_eq_lexed_levels : strip "a--[=[ b ]] ]=]c --[[ d\ne" = "ac \ne" := by
  obtain ⟨tokens, reads, same⟩ := strip_eq_lexed "a--[=[ b ]] ]=]c --[[ d\ne"
  have read : tokens = [.kept 'a', .long 1 " b ]] ".toList, .kept 'c', .kept ' ',
      .line "--[[ d".toList, .kept '\n', .kept 'e'] := by
    rw [← (reads _).mp (lexes_lex _)]
    decide +kernel
  subst read
  rw [same]
  · rfl
  · intro comment member
    simp only [List.mem_cons, reduceCtorEq, Token.line.injEq, false_or, List.not_mem_nil,
      or_false] at member
    subst member
    decide

end LuaDecl.Comment
