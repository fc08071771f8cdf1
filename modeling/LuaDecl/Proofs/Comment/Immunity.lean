import LuaDecl.Extraction
import LuaDecl.Proofs.Comment.Lexer

/-!
# Comments have no part in what is left

Two texts that differ inside a comment only leave the same text (`comments_have_no_part`). A closing
bracket is what ends a long comment, so a body without one neither ends a comment early nor ends one
that begins outside; and a line comment without brackets neither opens nor closes anything, wherever
it stands. The arguments follow the removal through both texts at once: where a long comment begins
in one, the same comment begins in the other.
-/

namespace LuaDecl.Comment

open Text

theorem longOpener?_append_dashes {p : List Char} (nonempty : p ≠ []) (s : List Char) :
    longOpener? (p ++ '-' :: '-' :: s) =
      (longOpener? p).map fun opener => (opener.1, opener.2 ++ '-' :: '-' :: s) := by
  cases inside : longOpener? p with
  | some opener =>
    obtain ⟨level, rest⟩ := opener
    rw [eq_append_of_longOpener? inside, List.append_assoc, longOpener?_longOpen_append]
    rfl
  | none =>
    have unopened : ∀ level rest, p ≠ longOpen level ++ rest := by
      rintro level rest rfl
      simp [longOpener?_longOpen_append] at inside
    cases across : longOpener? (p ++ '-' :: '-' :: s) with
    | none => rfl
    | some opener =>
      obtain ⟨level, rest⟩ := opener
      have whole := eq_append_of_longOpener? across
      rcases List.append_eq_append_iff.mp whole with ⟨part, spelled, tail⟩ | ⟨part, spelled, -⟩
      · obtain rfl := longOpen_ne_append_dashes nonempty spelled tail
        exact absurd (by simpa using spelled.symm) (unopened level [])
      · exact absurd spelled (unopened level part)

/-! ### The body of a long comment -/

theorem firstBehind_longClose {body : List Char} (fresh : ']' ∉ body) (level : Nat) :
    FirstBehind (longClose level) body := by
  have here : cut? (longClose level) (longClose level) = some ([], []) := by
    rw [cut?_eq_some_iff]
    exact ⟨by simp, firstBehind_nil⟩
  have found : cut? (longClose level) (body ++ longClose level) = some (body, []) := by
    rw [longClose, cut?_append_of_not_mem fresh, ← longClose, here]
    simp
  exact firstBehind_of_cut? found

/-- Another body without a closing bracket does not close what begins in front of the comment. -/
theorem noLongComment_append_comment {p : List Char} (nonempty : p ≠ []) {level : Nat}
    {body new after : List Char} (fresh : ']' ∉ new)
    (h : NoLongComment (p ++ (longOpen level ++ body ++ longClose level ++ after))) :
    NoLongComment (p ++ (longOpen level ++ new ++ longClose level ++ after)) := by
  have spelled (b : List Char) : longOpen level ++ b ++ longClose level ++ after =
      '-' :: '-' :: (('[' :: (List.replicate level '=' ++ '[' :: b)) ++
        (longClose level ++ after)) := by simp [longOpen]
  rw [spelled, ← longComment?_eq_none_iff] at h ⊢
  have opens (b : List Char) := longOpener?_append_dashes nonempty
    (('[' :: (List.replicate level '=' ++ '[' :: b)) ++ (longClose level ++ after))
  cases inside : longOpener? p with
  | none =>
    have unopened := opens new
    rw [inside, Option.map_none] at unopened
    simp only [longComment?, unopened, Option.bind_eq_bind, Option.bind_none]
  | some opener =>
    obtain ⟨n, rest⟩ := opener
    simp only [inside, Option.map_some] at opens
    rw [longComment?_of_longOpener? (opens _), Option.map_eq_none_iff] at h ⊢
    -- Neither the text in front nor the text from the close on holds a close of the level `n`.
    have front : cut? (longClose n) rest = none := by
      cases found : cut? (longClose n) rest with
      | none => rfl
      | some halves => simp [cut?_append_of_some found] at h
    have back : cut? (longClose n) (longClose level ++ after) = none := by
      rw [cut?_eq_none_iff] at h ⊢
      intro inner
      exact h (inner.trans ⟨rest ++ '-' :: '-' :: '[' :: (List.replicate level '=' ++ '[' :: body),
        [], by simp⟩)
    have letters : ']' ∉ '-' :: ('[' :: (List.replicate level '=' ++ '[' :: new)) := by
      simp [fresh]
    rw [cut?_append_cons_of_none front (not_mem_longClose (by decide) (by decide) n),
      Option.map_eq_none_iff, ← List.cons_append, longClose, cut?_append_of_not_mem letters,
      ← longClose, back]
    rfl

/-- With another body the comment is taken from the same place, and so is every other piece. -/
theorem Decomposes.replace {s : List Char} {before after : List Piece} {level : Nat}
    {body new : List Char} (h : Decomposes s (before ++ .comment level body :: after))
    (fresh : ']' ∉ new) :
    Decomposes ((before ++ .comment level new :: after).flatMap Piece.text)
      (before ++ .comment level new :: after) := by
  induction before generalizing s with
  | nil =>
    cases h with
    | drop first rest =>
      have spelled := rest.text
      simpa [Piece.text, spelled] using Decomposes.drop (firstBehind_longClose fresh level) rest
  | cons piece before ih =>
    cases h with
    | @keep c s _ quiet rest =>
      refine .keep ?_ (ih rest)
      have spelled (b : List Char) :
          c :: (before ++ .comment level b :: after).flatMap Piece.text =
            c :: before.flatMap Piece.text ++
              (longOpen level ++ b ++ longClose level ++ after.flatMap Piece.text) := by
        simp [Piece.text]
      have old : NoLongComment (c :: s) := quiet
      rw [← rest.text] at old
      have other := noLongComment_append_comment (p := c :: before.flatMap Piece.text) (by simp)
        fresh ((spelled body) ▸ old)
      rw [← spelled] at other
      exact other
    | drop first rest =>
      have more := Decomposes.drop first (ih rest)
      simpa [Piece.text] using more

/-! ### A line comment -/

/-- A text on one line and without brackets. -/
def Plain (t : List Char) : Prop :=
  '\n' ∉ t ∧ '[' ∉ t ∧ ']' ∉ t

/-- A line comment between two texts. -/
def withLine (p t q : List Char) : List Char :=
  p ++ '-' :: '-' :: (t ++ '\n' :: q)

theorem afterLong?_append_of_some {p after : List Char} (h : afterLong? p = some after)
    (s : List Char) : afterLong? (p ++ s) = some (after ++ s) := by
  rw [afterLong?_eq_map, Option.map_eq_some_iff] at h
  obtain ⟨⟨level, body, rest⟩, found, rfl⟩ := h
  obtain ⟨rfl, first⟩ := longComment?_eq_some_iff.mp found
  rw [List.append_assoc]
  exact afterLong?_of_firstBehind first (rest ++ s)

/-- A close of a long comment stands in front of the line comment or behind it. -/
theorem cut?_withLine_of_none {level : Nat} {p t : List Char}
    (h : cut? (longClose level) p = none) (plain : Plain t) (q : List Char) :
    (cut? (longClose level) (withLine p t q)).map Prod.snd =
      (cut? (longClose level) q).map Prod.snd := by
  have letters : ']' ∉ '-' :: t := by simp [plain.2.2]
  have closed : cut? (longClose level) [] = none := by
    rw [cut?_eq_none_iff]
    simp [longClose]
  have oneLine : '\n' ∉ longClose level := not_mem_longClose (by decide) (by decide) level
  have behind := cut?_append_cons_of_none closed oneLine q
  have inside : cut? (longClose level) ('-' :: t ++ '\n' :: q) =
      (cut? (longClose level) ('\n' :: q)).map fun halves => ('-' :: t ++ halves.1, halves.2) :=
    cut?_append_of_not_mem letters ('\n' :: q)
  rw [List.nil_append] at behind
  rw [withLine, cut?_append_cons_of_none h (not_mem_longClose (by decide) (by decide) level),
    ← List.cons_append, inside, behind]
  simp only [Option.map_map]
  rfl

/-- Where no long comment begins without the line comment, what begins with it does not depend on
the text of the line comment. -/
theorem afterLong?_withLine {p : List Char} (nonempty : p ≠ []) (h : afterLong? p = none)
    (q : List Char) : ∃ outcome, ∀ t, Plain t → afterLong? (withLine p t q) = outcome := by
  cases inside : longOpener? p with
  | none =>
    refine ⟨none, fun t _ => ?_⟩
    have unopened := longOpener?_append_dashes nonempty (t ++ '\n' :: q)
    rw [inside, Option.map_none] at unopened
    simp only [withLine, afterLong?, unopened, Option.bind_eq_bind, Option.bind_none]
  | some opener =>
    obtain ⟨level, rest⟩ := opener
    have unclosed : cut? (longClose level) rest = none := by
      rw [afterLong?_eq_map, longComment?_of_longOpener? inside] at h
      simpa using h
    refine ⟨(cut? (longClose level) q).map Prod.snd, fun t plain => ?_⟩
    have opened := longOpener?_append_dashes nonempty (t ++ '\n' :: q)
    rw [inside, Option.map_some] at opened
    rw [← cut?_withLine_of_none unclosed plain q, withLine, afterLong?_eq_map,
      longComment?_of_longOpener? opened, Option.map_map]
    rfl

/-- The removal of long comments passes over the line comment or takes it away as a part of a long
one, whatever its text. -/
theorem removeLong_withLine (p q : List Char) :
    (∃ left, ∀ t, Plain t → removeLong (withLine p t q) = left) ∨
      ∃ front back, ∀ t, Plain t → removeLong (withLine p t q) = withLine front t back := by
  -- Until the line comment is reached, the removal takes the same steps for every text of it.
  fun_induction removeLong p with
  | case1 =>
    refine Or.inr ⟨[], removeLong q, fun t plain => ?_⟩
    have hides : ¬ HidesOpener ('-' :: '-' :: t) := by
      intro opener
      have bracket : '[' ∈ '-' :: t := opener.subset (by simp)
      simp [plain.2.1] at bracket
    have fresh : NoLongComment ('-' :: '-' :: (t ++ '\n' :: q)) := by
      rw [← afterLong?_eq_none_iff]
      refine afterLong?_eq_none fun rest equal => ?_
      cases t with
      | nil => simp at equal
      | cons c t =>
        obtain ⟨rfl, -⟩ : c = '[' ∧ t ++ '\n' :: q = rest := by simpa using equal
        simp [Plain] at plain
    have lineFeed : removeLong ('\n' :: q) = '\n' :: removeLong q :=
      removeLong_cons (not_beginsDashes_of_ne (by decide) q)
    have passed := removeLong_lineComment fresh (Or.inr ⟨q, rfl⟩) hides
    rw [lineFeed] at passed
    exact passed
  | case2 c p after h ih =>
    have same (t : List Char) :
        removeLong (withLine (c :: p) t q) = removeLong (withLine after t q) :=
      removeLong_of_afterLong? (afterLong?_append_of_some h _)
    simpa only [same] using ih
  | case3 c p h ih =>
    obtain ⟨outcome, same⟩ := afterLong?_withLine (List.cons_ne_nil c p) h q
    cases outcome with
    | some after =>
      exact Or.inl ⟨removeLong after, fun t plain => removeLong_of_afterLong? (same t plain)⟩
    | none =>
      have kept (t : List Char) (plain : Plain t) :
          removeLong (withLine (c :: p) t q) = c :: removeLong (withLine p t q) :=
        removeLong_cons_of_none (same t plain)
      rcases ih with ⟨left, taken⟩ | ⟨front, back, passed⟩
      · exact Or.inl ⟨c :: left, fun t plain => by rw [kept t plain, taken t plain]⟩
      · exact Or.inr ⟨c :: front, back, fun t plain => by rw [kept t plain, passed t plain]; rfl⟩

/-- The removal of line comments does not look into the text of one. -/
theorem removeLine_withLine (p q : List Char) {t t' : List Char} (h : '\n' ∉ t) (h' : '\n' ∉ t') :
    removeLine (withLine p t q) = removeLine (withLine p t' q) := by
  fun_induction removeLine p with
  | case1 =>
    exact (removeLine_comment h q).trans (removeLine_comment h' q).symm
  | case2 rest ih =>
    have spelled (t : List Char) : withLine ('-' :: '-' :: rest) t q =
        '-' :: '-' :: (rest ++ '-' :: '-' :: (t ++ '\n' :: q)) := rfl
    have cutOff {t : List Char} (h : '\n' ∉ t) :
        ('-' :: '-' :: (t ++ '\n' :: q)).dropWhile (· ≠ '\n') = '\n' :: q := by
      have oneLine : '\n' ∉ '-' :: '-' :: t := by simp [h]
      have ends : EndsLine ('\n' :: q) := Or.inr ⟨q, rfl⟩
      have left := dropWhile_append_of_endsLine oneLine ends
      rwa [List.cons_append, List.cons_append] at left
    rw [spelled, spelled, removeLine_dashes, removeLine_dashes, List.dropWhile_append,
      List.dropWhile_append, cutOff h, cutOff h']
    split
    · rfl
    · exact ih
  | case3 c p noDashes ih =>
    have spelled (t : List Char) : withLine (c :: p) t q =
        c :: (p ++ '-' :: '-' :: (t ++ '\n' :: q)) := rfl
    by_cases single : c = '-' ∧ p = []
    · obtain ⟨rfl, rfl⟩ := single
      have lone {t : List Char} (h : '\n' ∉ t) :
          removeLine ('-' :: '-' :: ('-' :: t ++ '\n' :: q)) = '\n' :: removeLine q :=
        removeLine_comment (by simp [h]) q
      exact (lone h).trans (lone h').symm
    · have apart (t : List Char) : ¬ BeginsDashes (c :: withLine p t q) := by
        rw [beginsDashes_cons_iff]
        rintro ⟨rfl, rest, equal⟩
        cases p with
        | nil => exact single ⟨rfl, rfl⟩
        | cons d p =>
          obtain ⟨rfl, -⟩ := List.cons.inj equal
          exact noDashes p rfl rfl
      have step (t : List Char) :
          removeLine (withLine (c :: p) t q) = c :: removeLine (withLine p t q) :=
        removeLine_cons (apart t)
      rw [step, step, ih]

theorem stripChars_withLine (p q : List Char) {t t' : List Char} (plain : Plain t)
    (plain' : Plain t') : stripChars (withLine p t q) = stripChars (withLine p t' q) := by
  rw [stripChars, stripChars]
  rcases removeLong_withLine p q with ⟨left, taken⟩ | ⟨front, back, passed⟩
  · rw [taken t plain, taken t' plain']
  · rw [passed t plain, passed t' plain']
    exact removeLine_withLine front back plain.1 plain'.1

/-! ### Both comments -/

/-- Another body of a long comment that is removed leaves the same characters. -/
theorem Decomposes.stripChars_replace {s : List Char} {before after : List Piece} {level : Nat}
    {body new : List Char} (h : Decomposes s (before ++ .comment level body :: after))
    (fresh : ']' ∉ new) :
    stripChars ((before ++ .comment level new :: after).flatMap Piece.text) = stripChars s := by
  have rest : (before ++ .comment level new :: after).flatMap Piece.rest =
      (before ++ .comment level body :: after).flatMap Piece.rest := by simp [Piece.rest]
  rw [stripChars, stripChars, (h.replace fresh).removeLong, h.removeLong, rest]

theorem ofSource_eq_of_strip_eq {s t : String} (h : strip s = strip t) :
    Extraction.ofSource s = Extraction.ofSource t := by
  rw [Extraction.ofSource, Extraction.ofSource, h]

/-- What comments say has no part in what is left and in what is extracted: neither the body of a
long comment that is removed, as long as it holds no closing bracket, nor the text of a line comment
without brackets, whatever stands around it. -/
theorem comments_have_no_part :
    (∀ source : String, ∃ pieces : List Piece,
      (∀ other, Decomposes source.toList other ↔ other = pieces) ∧
      pieces.flatMap Piece.text = source.toList ∧
      pieces.flatMap Piece.rest = removeLong source.toList ∧
      ∀ before level body after, pieces = before ++ .comment level body :: after →
        ∀ new : String, ']' ∉ new.toList → ∀ replaced : String,
          replaced.toList = (before ++ .comment level new.toList :: after).flatMap Piece.text →
          strip replaced = strip source ∧
            Extraction.ofSource replaced = Extraction.ofSource source) ∧
    ∀ p q t t' : String, Plain t.toList → Plain t'.toList →
      strip (p ++ "--" ++ t ++ "\n" ++ q) = strip (p ++ "--" ++ t' ++ "\n" ++ q) ∧
        Extraction.ofSource (p ++ "--" ++ t ++ "\n" ++ q) =
          Extraction.ofSource (p ++ "--" ++ t' ++ "\n" ++ q) := by
  constructor
  · intro source
    have made := decomposes_decompose source.toList
    refine ⟨decompose source.toList, fun other => decomposes_iff, made.text,
      made.removeLong.symm, ?_⟩
    intro before level body after pieces new fresh replaced spelled
    have same : strip replaced = strip source := by
      rw [pieces] at made
      rw [strip, strip, spelled, made.stripChars_replace fresh]
    exact ⟨same, ofSource_eq_of_strip_eq same⟩
  · intro p q t t' plain plain'
    have spelled (t : String) : (p ++ "--" ++ t ++ "\n" ++ q).toList =
        withLine p.toList t.toList q.toList := by
      simp [withLine]
    have same : strip (p ++ "--" ++ t ++ "\n" ++ q) = strip (p ++ "--" ++ t' ++ "\n" ++ q) := by
      rw [strip, strip, spelled, spelled, stripChars_withLine p.toList q.toList plain plain']
    exact ⟨same, ofSource_eq_of_strip_eq same⟩

/-- A body that begins another long comment, and a line comment behind an opener that it does not
close. -/
theorem comments_have_no_part_opener :
    strip "a--[[--[=[]]c" = strip "a--[[b]]c" ∧
      strip ("--[[ x" ++ "--" ++ "y" ++ "\n" ++ "]=] z") =
        strip ("--[[ x" ++ "--" ++ "-- --" ++ "\n" ++ "]=] z") := by
  constructor
  · obtain ⟨pieces, read, -, -, replace⟩ := comments_have_no_part.1 "a--[[b]]c"
    have made : pieces = [.kept 'a', .comment 0 ['b'], .kept 'c'] := by
      rw [← (read _).mp (decomposes_decompose _)]
      decide +kernel
    exact (replace [.kept 'a'] 0 ['b'] [.kept 'c'] made "--[=[" (by decide) _ (by decide)).1
  · exact (comments_have_no_part.2 "--[[ x" "]=] z" "y" "-- --" (by simp [Plain])
      (by simp [Plain])).1

end LuaDecl.Comment
