import LuaDecl.Comment.Cursor
import LuaDecl.Proofs.Comment.Lexer
import LuaDecl.Proofs.Text.Bytes

/-!
# The loop over byte positions is safe

In the loop that removes long comments by byte positions no check ever fails (`Stands.isSafe`),
since the positions are always those between parts of the source (`Stands.step`), and every round
moves on, so the loop ends. It ends with the text without its long comments, and with no other
(`longLoop_isSafe`).
-/

namespace LuaDecl.Comment

open Text

/-! ### Runs of the loop -/

/-- The cursors that the loop comes to, after how many rounds. -/
inductive Reached (source : List Char) : Nat → Cursor → Prop
  | start : Reached source 0 .start
  | round {rounds : Nat} {c next : Cursor} : Reached source rounds c →
      step? source c = some (some next) → Reached source (rounds + 1) next

/-- The loop goes from a cursor to its end, with the text as its result. -/
inductive Ends (source : List Char) : Cursor → List Char → Prop
  | last {c : Cursor} {rest : List Char} : step? source c = some none →
      dropBytes? c.copied source = some rest → Ends source c (c.kept ++ rest)
  | round {c next : Cursor} {result : List Char} : step? source c = some (some next) →
      Ends source next result → Ends source c result

/-! ### Places between parts of the source -/

theorem opener?_eq (front ahead : List Char) :
    opener? (front ++ ahead) (byteCount front) =
      some ((cut? longMark ahead).map fun halves => byteCount (front ++ halves.1)) := by
  simp only [opener?, dropBytes?_byteCount, Option.bind_eq_bind, Option.bind_some, Option.pure_def,
    findBytes?, Option.map_map]
  simp only [Function.comp_def, byteCount_append]

theorem signsEnd?_eq (front s : List Char) :
    signsEnd? (encode (front ++ s)) (byteCount front) =
      some (byteCount (front ++ s.takeWhile (· = '='))) := by
  induction s generalizing front with
  | nil =>
    rw [signsEnd?, dif_neg (by simp [length_encode])]
    simp
  | cons d rest ih =>
    have inside : byteCount front < (encode (front ++ d :: rest)).length := by
      have positive := d.utf8Size_pos
      rw [length_encode, byteCount_append, byteCount]
      omega
    have small : '='.toUInt8 < 0x80 := by decide
    have sign := getElem?_encode_iff small front (d :: rest)
    rw [List.getElem?_eq_getElem inside, Option.some_inj, List.head?_cons, Option.some_inj] at sign
    rw [signsEnd?, dif_pos inside, List.getElem?_eq_getElem inside]
    simp only [Option.bind_eq_bind, Option.bind_some]
    by_cases isSign : d = '='
    · have place : byteCount front + 1 = byteCount (front ++ ['=']) := by
        rw [byteCount_append]
        rfl
      have text : front ++ '=' :: rest = front ++ ['='] ++ rest := by simp
      subst isSign
      rw [if_pos (sign.mpr rfl), List.takeWhile_cons_of_pos (by simp), place, text, ih,
        List.append_assoc]
      rfl
    · rw [if_neg (fun byte => isSign (sign.mp byte)), List.takeWhile_cons_of_neg (by simpa)]
      simp

theorem byteCount_of_signs {s : List Char} (signs : ∀ d ∈ s, d = '=') :
    byteCount s = s.length := by
  induction s with
  | nil => rfl
  | cons d rest ih =>
    rw [List.forall_mem_cons] at signs
    rw [byteCount, ih signs.2, signs.1, List.length_cons, Nat.add_comm]
    rfl

theorem byteCount_takeWhile_sign (s : List Char) :
    byteCount (s.takeWhile (· = '=')) = (s.takeWhile (· = '=')).length :=
  byteCount_of_signs fun d member => by
    simpa using List.all_eq_true.mp (List.all_takeWhile (p := (· = '=')) (l := s)) d member

theorem byteCount_append_longOpen (front : List Char) (level : Nat) :
    byteCount (front ++ longOpen level) = byteCount front + 3 + level + 1 := by
  have parts : longOpen level = longMark ++ (List.replicate level '=' ++ ['[']) := rfl
  have signs := byteCount_of_signs fun d member => List.eq_of_mem_replicate (n := level) member
  rw [parts, byteCount_append, byteCount_append, byteCount_append, signs, List.length_replicate,
    ← Nat.add_assoc, ← Nat.add_assoc]
  rfl

/-- The place where the signs behind an opener end. -/
theorem byteCount_signsEnd (front after : List Char) :
    byteCount (front ++ longMark ++ after.takeWhile (· = '=')) =
      byteCount front + 3 + (after.takeWhile (· = '=')).length := by
  rw [byteCount_append, byteCount_append, byteCount_takeWhile_sign]
  rfl

theorem longOpener?_of_bracket {after body : List Char}
    (bracket : after.dropWhile (· = '=') = '[' :: body) :
    longOpener? (longMark ++ after) = some ((after.takeWhile (· = '=')).length, body) := by
  simp [longMark, longOpener?, bracket]

theorem longOpener?_of_no_bracket {after : List Char}
    (noBracket : (after.dropWhile (· = '=')).head? ≠ some '[') :
    longOpener? (longMark ++ after) = none := by
  simp only [longMark, List.cons_append, List.nil_append, longOpener?]
  split
  · next bracket => simp [bracket] at noBracket
  · rfl

/-- Behind an opener the signs end at the first other byte, which is a bracket if and only if that
character stands there. -/
theorem signsEnd?_longMark (front after : List Char) :
    let levelEnd := byteCount front + 3 + (after.takeWhile (· = '=')).length
    signsEnd? (encode (front ++ (longMark ++ after))) (byteCount front + 3) = some levelEnd ∧
      ((encode (front ++ (longMark ++ after)))[levelEnd]? = some '['.toUInt8 ↔
        (after.dropWhile (· = '=')).head? = some '[') := by
  intro levelEnd
  constructor
  · have start : byteCount front + 3 = byteCount (front ++ longMark) := by
      rw [byteCount_append]
      rfl
    rw [start, ← List.append_assoc, signsEnd?_eq, byteCount_signsEnd]
  · have small : '['.toUInt8 < 0x80 := by decide
    have bracket := getElem?_encode_iff small (front ++ longMark ++ after.takeWhile (· = '='))
      (after.dropWhile (· = '='))
    rwa [byteCount_signsEnd, List.append_assoc, List.append_assoc,
      List.takeWhile_append_dropWhile] at bracket

theorem level?_eq (opener level : Nat) : level? opener (opener + 3 + level) = some level := by
  have first : minus? (opener + 3 + level) opener = some (3 + level) := by
    rw [minus?, if_pos (by omega), Nat.add_assoc, Nat.add_sub_cancel_left]
  have second : minus? (3 + level) 3 = some level := by
    rw [minus?, if_pos (Nat.le_add_right 3 level), Nat.add_sub_cancel_left]
  simp only [level?, first, Option.bind_eq_bind, Option.bind_some, second]

/-- The place behind a comment is that behind its close. -/
theorem commentEnd?_eq (front after : List Char) :
    commentEnd? (front ++ (longMark ++ after)) (byteCount front) =
      some ((longComment? (longMark ++ after)).map fun (level, body, _) =>
        byteCount (front ++ (longOpen level ++ body ++ longClose level))) := by
  obtain ⟨scan, bracket⟩ := signsEnd?_longMark front after
  rw [commentEnd?, scan]
  simp only [Option.bind_eq_bind, Option.bind_some]
  by_cases opens : (after.dropWhile (· = '=')).head? = some '['
  · obtain ⟨body, rest⟩ := List.head?_eq_some_iff.mp opens
    have opener := longOpener?_of_bracket rest
    have whole := eq_append_of_longOpener? opener
    rw [if_pos (bracket.mpr opens), longComment?_of_longOpener? opener, level?_eq,
      Option.bind_some, ← byteCount_append_longOpen, whole, ← List.append_assoc,
      dropBytes?_byteCount, Option.bind_some, findBytes?, Option.map_map, Option.map_map]
    simp only [Option.pure_def, Function.comp_def, byteCount_append, Nat.add_assoc]
  · rw [if_neg fun byte => opens (bracket.mp byte), longComment?,
      longOpener?_of_no_bracket opens]
    rfl

theorem between?_eq (before part after : List Char) :
    between? (byteCount before) (byteCount (before ++ part)) (before ++ part ++ after) =
      some part := by
  have inOrder : byteCount before ≤ byteCount (before ++ part) := by
    rw [byteCount_append]
    exact Nat.le_add_right _ _
  rw [between?, if_pos inOrder, sliceBytes?_byteCount]

/-! ### What is passed over -/

theorem removeLong_of_no_mark {s : List Char} (fresh : cut? longMark s = none) :
    removeLong s = s := by
  rw [cut?_eq_none_iff] at fresh
  have quiet : ∀ t, t <:+ s → t ≠ [] → afterLong? (t ++ []) = none := by
    intro t part nonempty
    cases found : afterLong? (t ++ []) with
    | none => rfl
    | some rest =>
      have front := exists_opener_of_afterLong? found
      rw [List.append_nil] at front
      exact absurd (front.isInfix.trans part.isInfix) fresh
  simpa [removeLong_nil] using removeLong_append_of_quiet quiet

/-- No comment begins before the first opener. -/
theorem removeLong_of_mark {s before after : List Char}
    (found : cut? longMark s = some (before, after)) :
    removeLong s = before ++ removeLong (longMark ++ after) := by
  obtain ⟨rfl, first⟩ := cut?_eq_some_iff.mp found
  have quiet : ∀ t, t <:+ before → t ≠ [] → afterLong? (t ++ (longMark ++ after)) = none := by
    rintro t ⟨u, rfl⟩ nonempty
    cases comment : afterLong? (t ++ (longMark ++ after)) with
    | none => rfl
    | some rest =>
      have front : longMark <+: t ++ longMark ++ after := by
        rw [List.append_assoc]
        exact exists_opener_of_afterLong? comment
      have within : longMark <+: t ++ longMark :=
        List.prefix_of_prefix_length_le front (List.prefix_append _ after) (by simp)
      obtain ⟨b, earlier⟩ := within
      have noRest : b = [] := first u b (by rw [List.append_assoc, ← earlier, List.append_assoc])
      subst noRest
      have lengths := congrArg List.length earlier
      simp only [List.append_nil, List.length_append, Nat.right_eq_add] at lengths
      exact absurd (List.eq_nil_of_length_eq_zero lengths) nonempty
  rw [List.append_assoc, removeLong_append_of_quiet quiet]

/-! ### The parts of the source at a cursor -/

/-- The loop has dealt with one part of the source, has passed over the next, and has the last one
ahead of it. -/
structure Stands (source : List Char) (c : Cursor) (dealt passed ahead : List Char) : Prop where
  text : source = dealt ++ passed ++ ahead
  copied : c.copied = byteCount dealt
  cursor : c.cursor = byteCount (dealt ++ passed)
  result : removeLong source = c.kept ++ passed ++ removeLong ahead

variable {source dealt passed ahead before after : List Char} {c : Cursor}

theorem stands_start (source : List Char) : Stands source .start [] [] source where
  text := rfl
  copied := rfl
  cursor := rfl
  result := rfl

theorem Stands.opener?_eq_none (h : Stands source c dealt passed ahead)
    (fresh : cut? longMark ahead = none) : opener? source c.cursor = some none := by
  rw [h.text, h.cursor, opener?_eq, fresh, Option.map_none]

theorem Stands.opener?_eq_some (h : Stands source c dealt passed ahead)
    (found : cut? longMark ahead = some (before, after)) :
    opener? source c.cursor = some (some (byteCount (dealt ++ passed ++ before))) := by
  rw [h.text, h.cursor, opener?_eq, found, Option.map_some]

theorem Stands.text_of_mark (h : Stands source c dealt passed ahead)
    (found : cut? longMark ahead = some (before, after)) :
    source = dealt ++ passed ++ before ++ (longMark ++ after) := by
  rw [h.text, append_of_cut? found]
  simp only [List.append_assoc]

theorem Stands.cursor_le (h : Stands source c dealt passed ahead) (before : List Char) :
    c.cursor ≤ byteCount (dealt ++ passed ++ before) := by
  rw [h.cursor, byteCount_append _ before]
  exact Nat.le_add_right _ _

/-- What was passed over up to an opener is a slice of the source. -/
theorem Stands.between?_eq (h : Stands source c dealt passed ahead)
    (found : cut? longMark ahead = some (before, after)) :
    between? c.copied (byteCount (dealt ++ passed ++ before)) source = some (passed ++ before) := by
  have slice := Comment.between?_eq dealt (passed ++ before) (longMark ++ after)
  simp only [← List.append_assoc] at slice
  rw [h.text_of_mark found, h.copied, ← List.append_assoc, slice]

/-- An opener without a comment is passed over by one character. -/
theorem Stands.passOver (h : Stands source c dealt passed ahead)
    (found : cut? longMark ahead = some (before, after))
    (noComment : longComment? (longMark ++ after) = none) :
    Stands source { c with cursor := byteCount (dealt ++ passed ++ before) + 1 } dealt
      (passed ++ before ++ ['-']) ('-' :: '[' :: after) where
  text := by
    rw [h.text_of_mark found]
    simp [longMark]
  copied := h.copied
  cursor := by
    simp only [← List.append_assoc]
    rw [byteCount_append _ ['-']]
    rfl
  result := by
    have none : afterLong? ('-' :: '-' :: '[' :: after) = none := by
      rw [afterLong?_eq_map]
      exact Option.map_eq_none_iff.mpr noComment
    have kept : removeLong (longMark ++ after) = '-' :: removeLong ('-' :: '[' :: after) :=
      removeLong_cons_of_none none
    rw [h.result, removeLong_of_mark found, kept]
    simp

/-- A comment is left out, and what was passed over before it is kept. -/
theorem Stands.leaveOut {level : Nat} {body rest : List Char}
    (h : Stands source c dealt passed ahead) (found : cut? longMark ahead = some (before, after))
    (comment : longComment? (longMark ++ after) = some (level, body, rest)) {stop : Nat}
    (place : stop = byteCount (dealt ++ passed ++ before ++
      (longOpen level ++ body ++ longClose level))) :
    Stands source { copied := stop, cursor := stop, kept := c.kept ++ (passed ++ before) }
      (dealt ++ passed ++ before ++ (longOpen level ++ body ++ longClose level)) [] rest where
  text := by
    rw [h.text_of_mark found, (longComment?_eq_some_iff.mp comment).1]
    simp only [List.append_assoc, List.append_nil]
  copied := place
  cursor := by rw [List.append_nil, place]
  result := by
    have left : afterLong? (longMark ++ after) = some rest := by
      rw [afterLong?_eq_map, comment, Option.map_some]
    rw [h.result, removeLong_of_mark found, removeLong_of_afterLong? left]
    simp only [List.append_assoc, List.nil_append]

/-- The loop ends where no opener is ahead. -/
theorem Stands.step?_eq_none (h : Stands source c dealt passed ahead)
    (fresh : cut? longMark ahead = none) : step? source c = some none := by
  rw [step?, h.opener?_eq_none fresh]
  rfl

/-- At an opener the loop moves on, and stands between parts of the source again. -/
theorem Stands.step (h : Stands source c dealt passed ahead)
    (found : cut? longMark ahead = some (before, after)) :
    ∃ next, step? source c = some (some next) ∧ c.cursor < next.cursor ∧
      ∃ dealt passed ahead, Stands source next dealt passed ahead := by
  have opener := h.opener?_eq_some found
  have comment := commentEnd?_eq (dealt ++ passed ++ before) after
  rw [← h.text_of_mark found] at comment
  cases closed : longComment? (longMark ++ after) with
  | none =>
    rw [closed, Option.map_none] at comment
    refine ⟨_, ?_, Nat.lt_succ_of_le (h.cursor_le before), _, _, _, h.passOver found closed⟩
    simp only [step?, opener, comment, Option.bind_eq_bind, Option.bind_some, Option.pure_def]
  | some parts =>
    obtain ⟨level, body, rest⟩ := parts
    rw [closed, Option.map_some] at comment
    refine ⟨_, ?_, ?_, _, _, _, h.leaveOut found closed rfl⟩
    · simp only [step?, opener, comment, h.between?_eq found, Option.bind_eq_bind,
        Option.bind_some, Option.pure_def]
    · have before_le := h.cursor_le before
      simp only [← List.append_assoc] at before_le ⊢
      rw [byteCount_append _ (longClose level), byteCount_append _ body, byteCount_append_longOpen]
      omega

/-! ### Safety -/

/-- What is done at an opener is safe: the scan reads bytes of the source only and ends behind the
opener, so that the level is no negative number, and behind a bracket the source can be cut. -/
structure IsSafeOpener (source : List Char) (opener : Nat) : Prop where
  isCut : IsCut source opener
  scan : ∃ levelEnd, signsEnd? (encode source) (opener + 3) = some levelEnd ∧
    opener + 3 ≤ levelEnd ∧ levelEnd ≤ (encode source).length ∧
    ((encode source)[levelEnd]? = some '['.toUInt8 → IsCut source (levelEnd + 1))

/-- What a round does at a cursor is safe: its places are in order and the source can be cut at
them, no check fails, and unless the loop ends it moves on. -/
structure IsSafe (source : List Char) (c : Cursor) : Prop where
  copied_le : c.copied ≤ c.cursor
  cursor_le : c.cursor ≤ (encode source).length
  copied_isCut : IsCut source c.copied
  cursor_isCut : IsCut source c.cursor
  opener : ∀ opener, opener? source c.cursor = some (some opener) →
    c.cursor ≤ opener ∧ IsSafeOpener source opener
  step : ∃ next, step? source c = some next ∧ ∀ moved ∈ next, c.cursor < moved.cursor

theorem isSafeOpener (front after : List Char) :
    IsSafeOpener (front ++ (longMark ++ after)) (byteCount front) where
  isCut := isCut_append front (longMark ++ after)
  scan := by
    obtain ⟨scan, bracket⟩ := signsEnd?_longMark front after
    refine ⟨_, scan, Nat.le_add_right _ _, ?_, fun byte => ?_⟩
    · rw [← byteCount_signsEnd, length_encode]
      refine IsCut.le ⟨_, after.dropWhile (· = '='), ?_, rfl⟩
      rw [List.append_assoc, List.append_assoc, List.takeWhile_append_dropWhile]
    · obtain ⟨body, rest⟩ := List.head?_eq_some_iff.mp (bracket.mp byte)
      have whole := eq_append_of_longOpener? (longOpener?_of_bracket rest)
      rw [← byteCount_append_longOpen, whole, ← List.append_assoc]
      exact isCut_append _ body

/-- Between parts of the source a round is safe. -/
theorem Stands.isSafe (h : Stands source c dealt passed ahead) : IsSafe source c where
  copied_le := by
    rw [h.copied, h.cursor, byteCount_append]
    exact Nat.le_add_right _ _
  cursor_le := by
    rw [length_encode, h.text, byteCount_append, ← h.cursor]
    exact Nat.le_add_right _ _
  copied_isCut := ⟨dealt, passed ++ ahead, by rw [h.text, List.append_assoc], h.copied⟩
  cursor_isCut := ⟨dealt ++ passed, ahead, h.text, h.cursor⟩
  opener := by
    intro opener place
    cases found : cut? longMark ahead with
    | none =>
      rw [h.opener?_eq_none found] at place
      cases place
    | some halves =>
      obtain ⟨before, after⟩ := halves
      rw [h.opener?_eq_some found] at place
      cases place
      refine ⟨h.cursor_le before, ?_⟩
      rw [h.text_of_mark found]
      exact isSafeOpener (dealt ++ passed ++ before) after
  step := by
    cases found : cut? longMark ahead with
    | none => exact ⟨none, h.step?_eq_none found, by simp⟩
    | some halves =>
      obtain ⟨next, step, further, -⟩ := h.step found
      exact ⟨some next, step, by simpa using further⟩

/-! ### Whole runs -/

/-- Every cursor that is reached stands between parts of the source, and has moved on in every
round. -/
theorem Reached.stands {rounds : Nat} (h : Reached source rounds c) :
    (∃ dealt passed ahead, Stands source c dealt passed ahead) ∧ rounds ≤ c.cursor := by
  induction h with
  | start => exact ⟨⟨_, _, _, stands_start source⟩, Nat.le_refl 0⟩
  | @round rounds c next _ moves ih =>
    obtain ⟨⟨dealt, passed, ahead, stands⟩, bound⟩ := ih
    cases found : cut? longMark ahead with
    | none =>
      rw [stands.step?_eq_none found] at moves
      cases moves
    | some halves =>
      obtain ⟨other, step, further, again⟩ := stands.step found
      rw [step] at moves
      cases moves
      exact ⟨again, Nat.lt_of_le_of_lt bound further⟩

/-- From between parts of the source the loop ends. The part that a cursor has ahead of it gets
shorter in every round. -/
theorem Stands.ends (h : Stands source c dealt passed ahead) :
    Ends source c (removeLong source) := by
  induction left : byteCount source - c.cursor using Nat.strongRecOn
    generalizing c dealt passed ahead with
  | ind left ih =>
    cases found : cut? longMark ahead with
    | none =>
      have rest : dropBytes? c.copied source = some (passed ++ ahead) := by
        rw [h.text, h.copied, List.append_assoc, dropBytes?_byteCount]
      rw [h.result, removeLong_of_no_mark found, List.append_assoc]
      exact .last (h.step?_eq_none found) rest
    | some halves =>
      obtain ⟨next, step, further, dealt, passed, ahead, again⟩ := h.step found
      have bound := again.isSafe.cursor_le
      rw [length_encode] at bound
      exact .round step (ih (byteCount source - next.cursor) (by omega) again rfl)

/-- The loop goes to its end in one way. -/
theorem Ends.unique {result other : List Char} (h : Ends source c result)
    (ho : Ends source c other) : result = other := by
  induction h with
  | last ends rest =>
    cases ho with
    | last _ again =>
      rw [rest] at again
      cases again
      rfl
    | round moves _ =>
      rw [ends] at moves
      cases moves
  | round moves _ ih =>
    cases ho with
    | last ends _ =>
      rw [moves] at ends
      cases ends
    | round again further =>
      rw [moves] at again
      cases again
      exact ih further

/-- Wherever the loop comes to, the next round is safe, and it comes there after no more rounds than
there are bytes before the cursor. So the loop ends, with the text without its long comments and
with no other. -/
theorem longLoop_isSafe (source : List Char) :
    (∀ rounds c, Reached source rounds c → IsSafe source c ∧ rounds ≤ c.cursor) ∧
      ∀ result, Ends source .start result ↔ result = removeLong source := by
  have ends := (stands_start source).ends
  refine ⟨fun rounds c reached => ?_, fun result => ⟨fun h => h.unique ends, ?_⟩⟩
  · obtain ⟨⟨dealt, passed, ahead, stands⟩, bound⟩ := reached.stands
    exact ⟨stands.isSafe, bound⟩
  · rintro rfl
    exact ends

end LuaDecl.Comment
