import LuaDecl.Proofs.Definition.Recognition
import LuaDecl.Proofs.Definition.Subject
import LuaDecl.Proofs.Text.LastWord
import Mathlib.Algebra.Order.BigOperators.Group.List
import Mathlib.Algebra.Order.Group.Nat
import Mathlib.Data.List.Nodup

/-!
# Opening parentheses

A definition opens one parenthesis for its parameters, and the text before that parenthesis tells
the shape of the definition when it is read backwards (`shapeBefore`). Hits of different shapes
therefore never share their parenthesis, and hits of one shape do not because they do not overlap.
Main statement: `Extraction.defines_once`. No definition is found twice, so a text has no more
signatures than opening parentheses.
-/

namespace LuaDecl

namespace Text

variable {s : List Char} {start stop : Nat}

theorem take_append_extract (h : start ≤ stop) :
    s.take start ++ s.extract start stop = s.take stop := by
  rw [List.extract_eq_take_drop, ← List.take_add, Nat.add_sub_cancel' h]

theorem extract_eq_drop_take : s.extract start stop = (s.take stop).drop start := by
  rw [List.extract_eq_take_drop, List.drop_take]

/-- Different positions at which a character stands are no more than its occurrences. -/
theorem length_le_count {positions : List Nat} {c : Char}
    (distinct : positions.Nodup) (all : ∀ position ∈ positions, s[position]? = some c) :
    positions.length ≤ s.count c := by
  rw [← List.length_idxsOf]
  apply List.Nodup.length_le_of_subset distinct
  intro position member
  obtain ⟨inside, here⟩ := List.getElem?_eq_some_iff.mp (all position member)
  exact List.mem_idxsOf_iff_exists_getElem_pos.mpr ⟨inside, beq_iff_eq.mpr here⟩

end Text

namespace Definition

open Text

/-! ### Reading backwards from a parenthesis -/

/-- The shape of a definition that opens its parenthesis behind the text. Either the last word is a
name, behind a colon, a dot or blanks. Or it is the keyword, behind an equal sign, and then the word
before that sign is a name, behind a dot or not. -/
def shapeBefore (s : List Char) : Shape :=
  let rest := beforeLastWord s
  if rest.getLast? = some ':' then .colonStatement
  else if rest.getLast? = some '.' then .dotStatement
  else if (trimEnd rest).getLast? = some '=' then
    if (beforeLastWord (trimEnd rest).dropLast).getLast? = some '.' then .dotAssignment
    else .globalAssignment
  else .globalStatement

/-- Blanks do not bring a visible character to the end of a text. -/
theorem getLast?_append_blanks_ne {s blanks : List Char} {c : Char} (hb : Blanks blanks)
    (hc : isBlank c = false) (h : s.getLast? ≠ some c) : (s ++ blanks).getLast? ≠ some c := by
  rcases List.eq_nil_or_concat blanks with rfl | ⟨front, last, rfl⟩
  · rwa [List.append_nil]
  · have blank : isBlank last = true := hb last (by simp)
    rw [List.concat_eq_append, ← List.append_assoc, List.getLast?_concat]
    intro equal
    rw [Option.some.inj equal, hc] at blank
    cases blank

variable (front : List Char) {name gap trail : List Char}

theorem beforeLastWord_mark {mark : Char} (hm : isWord mark = false) (hn : Word name)
    (ht : Blanks trail) : beforeLastWord (front ++ mark :: name ++ trail) = front ++ [mark] := by
  have cut := beforeLastWord_append (beginsWord_concat hm front) hn ht
  rwa [List.append_assoc front, List.singleton_append] at cut

theorem shapeBefore_colon (hn : Word name) (ht : Blanks trail) :
    shapeBefore (front ++ ':' :: name ++ trail) = .colonStatement := by
  rw [shapeBefore, beforeLastWord_mark front (by decide) hn ht, List.getLast?_concat, if_pos rfl]

theorem shapeBefore_dot (hn : Word name) (ht : Blanks trail) :
    shapeBefore (front ++ '.' :: name ++ trail) = .dotStatement := by
  rw [shapeBefore, beforeLastWord_mark front (by decide) hn ht, List.getLast?_concat,
    if_neg (by decide), if_pos rfl]

/-- The keyword stands before the name of a global. -/
theorem shapeBefore_keyword (hg : Blanks gap) (hne : gap ≠ []) (hn : Word name)
    (ht : Blanks trail) :
    shapeBefore (front ++ keyword ++ gap ++ name ++ trail) = .globalStatement := by
  have begins : BeginsWord (front ++ keyword ++ gap) := by
    rcases List.eq_nil_or_concat gap with rfl | ⟨start, last, rfl⟩
    · exact absurd rfl hne
    · rw [List.concat_eq_append, ← List.append_assoc]
      exact beginsWord_concat (isWord_eq_false_of_isBlank (hg last (by simp))) _
  have visible : trimEnd (front ++ keyword ++ gap) = front ++ keyword := by
    rw [trimEnd_append_blanks hg, trimEnd_append_word identifier_keyword.word]
  have last : (front ++ keyword).getLast? = some 'n' := by simp [keyword]
  have noColon := getLast?_append_blanks_ne (c := ':') hg (by decide) (by rw [last]; decide)
  have noDot := getLast?_append_blanks_ne (c := '.') hg (by decide) (by rw [last]; decide)
  rw [shapeBefore, beforeLastWord_append begins hn ht, visible, last]
  rw [if_neg noColon, if_neg noDot, if_neg (by decide)]

/-- The keyword stands behind the equal sign of an assignment, and the target before that. -/
theorem shapeBefore_equal (hg : Blanks gap) (ht : Blanks trail) :
    shapeBefore (front ++ '=' :: gap ++ keyword ++ trail) =
      if (beforeLastWord front).getLast? = some '.' then .dotAssignment
      else .globalAssignment := by
  have sign : front ++ '=' :: gap = front ++ ['='] ++ gap := by simp
  have begins : BeginsWord (front ++ ['='] ++ gap) :=
    beginsWord_append_blanks (beginsWord_concat (by decide) front) hg
  have visible : trimEnd (front ++ ['='] ++ gap) = front ++ ['='] := by
    rw [trimEnd_append_blanks hg, trimEnd_append_of_not_isBlank (by decide)]
  have last : (front ++ ['=']).getLast? = some '=' := List.getLast?_concat
  have noColon := getLast?_append_blanks_ne (c := ':') hg (by decide) (by rw [last]; decide)
  have noDot := getLast?_append_blanks_ne (c := '.') hg (by decide) (by rw [last]; decide)
  rw [sign, shapeBefore, beforeLastWord_append begins identifier_keyword.word ht, visible, last]
  rw [if_neg noColon, if_neg noDot, if_pos rfl, List.dropLast_concat]

/-- A definition at a line start opens its parenthesis behind a text that tells its shape. -/
theorem Shape.exists_front_of_fits {shape : Shape} {text : List Char} {c : Capture}
    (h : shape.Fits text c) :
    ∃ front, text = front ++ '(' :: (c.params ++ [')']) ∧
      ∀ before, (before = [] ∨ ∃ lines, before = lines ++ ['\n']) →
        shapeBefore (before ++ front) = shape := by
  cases shape with
  | colonStatement =>
    obtain ⟨lead, gap, subject, trail, -, -, -, ht, ⟨t, -, rfl, -, hw⟩, -, rfl⟩ := h
    refine ⟨lead ++ keyword ++ gap ++ (t ++ ':' :: c.name) ++ trail, by simp, ?_⟩
    intro before _
    simpa using shapeBefore_colon (before ++ lead ++ keyword ++ gap ++ t) hw ht
  | dotStatement =>
    obtain ⟨lead, gap, subject, trail, -, -, -, ht, ⟨t, -, rfl, -, hw⟩, -, rfl⟩ := h
    refine ⟨lead ++ keyword ++ gap ++ (t ++ '.' :: c.name) ++ trail, by simp, ?_⟩
    intro before _
    simpa using shapeBefore_dot (before ++ lead ++ keyword ++ gap ++ t) hw ht
  | globalStatement =>
    obtain ⟨lead, gap, subject, trail, -, hg, hne, ht, ⟨-, rfl, hi⟩, -, rfl⟩ := h
    refine ⟨lead ++ keyword ++ gap ++ c.name ++ trail, by simp, ?_⟩
    intro before _
    simpa using shapeBefore_keyword (before ++ lead) hg hne hi.word ht
  | dotAssignment =>
    obtain ⟨lead, subject, blanks, gap, trail, -, hb, hg, ht, ⟨t, -, rfl, -, hw⟩, -, rfl⟩ := h
    refine ⟨lead ++ (t ++ '.' :: c.name) ++ blanks ++ '=' :: gap ++ keyword ++ trail, by simp, ?_⟩
    intro before _
    have noWord : isWord '.' = false := by decide
    have target := beforeLastWord_mark (before ++ lead ++ t) noWord hw hb
    have back := shapeBefore_equal (before ++ lead ++ t ++ '.' :: c.name ++ blanks) hg ht
    rw [target, List.getLast?_concat, if_pos rfl] at back
    simpa using back
  | globalAssignment =>
    obtain ⟨lead, subject, blanks, gap, trail, hl, hb, hg, ht, ⟨-, rfl, hi⟩, -, rfl⟩ := h
    refine ⟨lead ++ c.name ++ blanks ++ '=' :: gap ++ keyword ++ trail, by simp, ?_⟩
    intro before line
    have begins : BeginsWord before := by
      rcases line with rfl | ⟨lines, rfl⟩
      · exact beginsWord_nil
      · exact beginsWord_concat (by decide) lines
    have noDot : before.getLast? ≠ some '.' := by
      rcases line with rfl | ⟨lines, rfl⟩
      · simp
      · simp
    have target : beforeLastWord (before ++ lead ++ c.name ++ blanks) = before ++ lead :=
      beforeLastWord_append (beginsWord_append_blanks begins hl) hi.word hb
    have back := shapeBefore_equal (before ++ lead ++ c.name ++ blanks) hg ht
    rw [target, if_neg (getLast?_append_blanks_ne hl (by decide) noDot)] at back
    simpa using back

/-! ### The parentheses of hits -/

/-- Where the parenthesis stands that opens the parameters of a hit. -/
def Hit.paren (hit : Hit) : Nat :=
  hit.stop - (hit.capture.params.length + 2)

namespace Shape

variable {shape : Shape} {text : List Char} {hit : Hit}

/-- Up to its end, a hit is a text that tells its shape and the parameters in parentheses. -/
theorem spelled_of_mem_hits (found : hit ∈ shape.hits text) :
    hit.start ≤ hit.paren ∧ hit.paren < hit.stop ∧
      text.take hit.stop = text.take hit.paren ++ '(' :: (hit.capture.params ++ [')']) ∧
      shapeBefore (text.take hit.paren) = shape := by
  obtain ⟨-, positive, inside, line, fits⟩ := (finds_hits shape text).sound hit found
  obtain ⟨front, spelled, back⟩ := exists_front_of_fits fits
  have whole : text.take hit.stop =
      text.take hit.start ++ front ++ '(' :: (hit.capture.params ++ [')']) := by
    rw [List.append_assoc, ← spelled, take_append_extract (Nat.le_of_lt positive)]
  have lengths := congrArg List.length whole
  simp only [List.length_take, List.length_append, List.length_cons, List.length_nil] at lengths
  have position : hit.paren = hit.start + front.length := by
    rw [Hit.paren]
    omega
  have before : text.take hit.paren = text.take hit.start ++ front := by
    have shorter : text.take hit.paren = (text.take hit.stop).take hit.paren := by
      rw [List.take_take, Nat.min_eq_left (by omega)]
    have length : (text.take hit.start ++ front).length = hit.paren := by
      rw [List.length_append, List.length_take]
      omega
    rw [shorter, whole, List.take_left' length]
  rw [before]
  exact ⟨by omega, by omega, whole, back _ (IsLineStart.take_eq line)⟩

theorem length_take_paren (found : hit ∈ shape.hits text) :
    (text.take hit.paren).length = hit.paren := by
  obtain ⟨-, inside, -⟩ := spelled_of_mem_hits found
  obtain ⟨-, -, bound, -⟩ := (finds_hits shape text).sound hit found
  apply List.length_take_of_le
  omega

theorem getElem?_paren (found : hit ∈ shape.hits text) : text[hit.paren]? = some '(' := by
  obtain ⟨-, inside, whole, -⟩ := spelled_of_mem_hits found
  have length := length_take_paren found
  rw [← List.getElem?_take_of_lt inside, whole, List.getElem?_append_right (by omega), length,
    Nat.sub_self]
  rfl

theorem extract_paren (found : hit ∈ shape.hits text) :
    text.extract hit.paren hit.stop = '(' :: (hit.capture.params ++ [')']) := by
  obtain ⟨-, -, whole, -⟩ := spelled_of_mem_hits found
  rw [extract_eq_drop_take, whole, List.drop_left' (length_take_paren found)]

/-- The last character of a hit closes its parameters. -/
theorem getElem?_stop (found : hit ∈ shape.hits text) : text[hit.stop - 1]? = some ')' := by
  obtain ⟨-, inside, whole, -⟩ := spelled_of_mem_hits found
  obtain ⟨-, -, bound, -⟩ := (finds_hits shape text).sound hit found
  have length : (text.take hit.stop).length = hit.stop := List.length_take_of_le bound
  have last := List.getLast?_eq_getElem? (l := text.take hit.stop)
  rw [length, List.getElem?_take_of_lt (by omega)] at last
  rw [← last, whole, List.append_cons, ← List.append_assoc]
  exact List.getLast?_concat

/-- The hits of a shape open different parentheses, since they do not overlap. -/
theorem nodup_parens (shape : Shape) (text : List Char) :
    ((shape.hits text).map Hit.paren).Nodup := by
  apply List.pairwise_map.mpr
  apply (finds_hits shape text).ordered.imp_of_mem
  intro x y hx hy apart
  obtain ⟨-, before, -⟩ := spelled_of_mem_hits hx
  obtain ⟨after, -⟩ := spelled_of_mem_hits hy
  omega

/-- Hits that open the same parenthesis are the same, whatever their shapes are. -/
theorem eq_of_paren_eq {a b : Shape} {x y : Hit} (hx : x ∈ a.hits text) (hy : y ∈ b.hits text)
    (same : x.paren = y.paren) : a = b ∧ x = y := by
  obtain ⟨-, -, -, shapeX⟩ := spelled_of_mem_hits hx
  obtain ⟨-, -, -, shapeY⟩ := spelled_of_mem_hits hy
  obtain rfl : a = b := by rw [← shapeX, ← shapeY, same]
  exact ⟨rfl, List.inj_on_of_nodup_map (nodup_parens a text) hx hy same⟩

/-- All hits in a text, of any shape, open different parentheses. -/
theorem nodup_allParens (text : List Char) :
    (all.flatMap fun shape => (shape.hits text).map Hit.paren).Nodup := by
  apply List.nodup_flatMap.mpr
  constructor
  · intro shape _
    exact nodup_parens shape text
  · have distinct : all.Nodup := by decide
    apply distinct.imp
    intro a b different position inA inB
    obtain ⟨x, hx, rfl⟩ := List.mem_map.mp inA
    obtain ⟨y, hy, same⟩ := List.mem_map.mp inB
    exact different (eq_of_paren_eq hx hy same.symm).1

/-- From one position of a text one shape fits at most. -/
theorem eq_of_fits_extract {a b : Shape} {start stop other : Nat} {c d : Capture}
    (ha : a.Fits (text.extract start stop) c) (hb : b.Fits (text.extract start other) d) :
    a = b := by
  rw [List.extract_eq_take_drop] at ha hb
  have scanA := scan?_append_of_fits ha ((text.drop start).drop (stop - start))
  have scanB := scan?_append_of_fits hb ((text.drop start).drop (other - start))
  rw [List.take_append_drop] at scanA scanB
  exact eq_of_scan? scanA scanB

end Shape

end Definition

namespace Extraction

open Definition

theorem length_ofShape_le (text : List Char) (shape : Shape) :
    (ofShape text shape).length ≤ ((shape.hits text).map Hit.paren).length := by
  rw [ofShape, List.length_map, List.length_map]
  exact List.length_filter_le _ _

/-- No definition is found twice. The hits of all shapes open different parentheses, from each
position one shape fits at most, and there are no more signatures than opening parentheses. -/
theorem defines_once (text : String) :
    (∀ shape : Shape, ∀ hit ∈ shape.hits text.toList,
      text.toList.extract hit.paren hit.stop = '(' :: (hit.capture.params ++ [')'])) ∧
    (∀ a b : Shape, ∀ x ∈ a.hits text.toList, ∀ y ∈ b.hits text.toList,
      x.paren = y.paren → a = b ∧ x = y) ∧
    (Shape.all.flatMap fun shape => (shape.hits text.toList).map Hit.paren).Nodup ∧
    (∀ (a b : Shape) (start stop other : Nat) (c d : Capture),
      a.Fits (text.toList.extract start stop) c → b.Fits (text.toList.extract start other) d →
        a = b) ∧
    (ofText text).signatures.length ≤ text.toList.count '(' := by
  refine ⟨?_, ?_, Shape.nodup_allParens text.toList, ?_, ?_⟩
  · intro shape hit found
    exact Shape.extract_paren found
  · intro a b x hx y hy same
    exact Shape.eq_of_paren_eq hx hy same
  · intro a b start stop other c d ha hb
    exact Shape.eq_of_fits_extract ha hb
  · have parens : ∀ position ∈ Shape.all.flatMap fun shape =>
        (shape.hits text.toList).map Hit.paren, text.toList[position]? = some '(' := by
      intro position member
      obtain ⟨shape, -, inShape⟩ := List.mem_flatMap.mp member
      obtain ⟨hit, found, rfl⟩ := List.mem_map.mp inShape
      exact Shape.getElem?_paren found
    calc (ofText text).signatures.length
        ≤ (Shape.all.flatMap fun shape => (shape.hits text.toList).map Hit.paren).length := by
          simp only [ofText, ofSignatures, List.length_flatMap]
          apply List.sum_le_sum
          intro shape _
          exact length_ofShape_le text.toList shape
      _ ≤ text.toList.count '(' :=
          Text.length_le_count (Shape.nodup_allParens text.toList) parens

end Extraction

end LuaDecl
