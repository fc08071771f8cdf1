import LuaDecl.Extraction
import LuaDecl.Proofs.Definition.Subject

/-!
# What the search for a shape finds

The hits of a shape in a text, described through `Shape.Fits` alone: they stand in the order of
their positions and do not overlap, each begins at a line start and fits the shape, and each line
start from which the shape fits lies inside a hit. The search is followed position by position,
with what it has still to find as the invariant (`Shape.Finds`).
-/

namespace LuaDecl

namespace Definition

open Text

/-- The position is the start of the text or stands behind a line feed. -/
def IsLineStart (text : List Char) (position : Nat) : Prop :=
  position = 0 ∨ text[position - 1]? = some '\n'

theorem isLineStart_succ {text : List Char} {position : Nat} :
    IsLineStart text (position + 1) ↔ text[position]? = some '\n' := by
  simp [IsLineStart]

/-- Up to a line start a text holds nothing or ends with a line feed. -/
theorem IsLineStart.take_eq {text : List Char} {position : Nat} (h : IsLineStart text position) :
    text.take position = [] ∨ ∃ lines, text.take position = lines ++ ['\n'] := by
  cases position with
  | zero => exact Or.inl rfl
  | succ last =>
    obtain ⟨inside, lineFeed⟩ := List.getElem?_eq_some_iff.mp (isLineStart_succ.mp h)
    right
    refine ⟨text.take last, ?_⟩
    rw [← List.take_append_getElem inside, lineFeed]

/-- The hits are what the search for the shape has to find from a position on. -/
structure Shape.Finds (shape : Shape) (text : List Char) (position : Nat) (hits : List Hit) :
    Prop where
  ordered : hits.Pairwise fun a b => a.stop ≤ b.start
  sound : ∀ hit ∈ hits, position ≤ hit.start ∧ hit.start < hit.stop ∧ hit.stop ≤ text.length ∧
    IsLineStart text hit.start ∧ shape.Fits (text.extract hit.start hit.stop) hit.capture
  complete : ∀ start stop c, position ≤ start → IsLineStart text start →
    shape.Fits (text.extract start stop) c → ∃ hit ∈ hits, hit.start ≤ start ∧ start < hit.stop

namespace Shape

/-- From the end of a text nothing is left to find. -/
theorem finds_nil {shape : Shape} {text : List Char} {position : Nat}
    (h : text.length ≤ position) : shape.Finds text position [] where
  ordered := List.Pairwise.nil
  sound := by simp
  complete := by
    intro start stop c after _ fit
    have positive := length_pos_of_fits fit
    have none : (text.extract start stop).length = 0 := by
      simp only [List.extract_eq_take_drop, List.length_take, List.length_drop]
      omega
    omega

/-- A fit at the position is a hit, and the search goes on where it ends. -/
theorem finds_of_fits {shape : Shape} {text fit after : List Char} {position : Nat} {c : Capture}
    {hits : List Hit} (line : IsLineStart text position) (here : text.drop position = fit ++ after)
    (fits : shape.Fits fit c) (later : shape.Finds text (position + fit.length) hits) :
    shape.Finds text position (⟨position, position + fit.length, c⟩ :: hits) := by
  have positive := length_pos_of_fits fits
  have inside : position + fit.length ≤ text.length := by
    have lengths := congrArg List.length here
    simp only [List.length_drop, List.length_append] at lengths
    omega
  refine ⟨?_, ?_, ?_⟩
  · refine List.pairwise_cons.mpr ⟨?_, later.ordered⟩
    intro hit member
    exact (later.sound hit member).1
  · intro hit member
    rcases List.mem_cons.mp member with rfl | member
    · have spelled : text.extract position (position + fit.length) = fit := by
        simp [List.extract_eq_take_drop, here]
      exact ⟨Nat.le_refl _, by simpa using positive, inside, line, by rw [spelled]; exact fits⟩
    · obtain ⟨after, rest⟩ := later.sound hit member
      exact ⟨by omega, rest⟩
  · intro start stop capture after lineStart other
    by_cases within : start < position + fit.length
    · exact ⟨_, List.mem_cons_self, after, within⟩
    · obtain ⟨hit, member, covers⟩ := later.complete start stop capture (by omega) lineStart other
      exact ⟨hit, List.mem_cons_of_mem _ member, covers⟩

/-- Where no fit begins, the search goes on one character later. -/
theorem finds_of_not_fits {shape : Shape} {text : List Char} {position : Nat} {hits : List Hit}
    (none : IsLineStart text position → ∀ stop c, ¬ shape.Fits (text.extract position stop) c)
    (later : shape.Finds text (position + 1) hits) : shape.Finds text position hits where
  ordered := later.ordered
  sound := by
    intro hit member
    obtain ⟨after, rest⟩ := later.sound hit member
    exact ⟨by omega, rest⟩
  complete := by
    intro start stop c after line fit
    by_cases here : start = position
    · subst here
      exact absurd fit (none line stop c)
    · exact later.complete start stop c (by omega) line fit

/-- A scan that fails leaves no fit at the front of the text. -/
theorem not_fits_of_scan?_eq_none {shape : Shape} {s : List Char} (h : shape.scan? s = none)
    (n : Nat) (c : Capture) : ¬ shape.Fits (s.take n) c := by
  intro fit
  have taken := scan?_append_of_fits fit (s.drop n)
  rw [List.take_append_drop, h] at taken
  cases taken

/-- The search from a position finds all there is from there on. The flag of the search says whether
the position is a line start. -/
theorem finds_hitsFrom {shape : Shape} {text : List Char} (position : Nat) (atLineStart : Bool)
    (s : List Char) (here : text.drop position = s)
    (line : atLineStart = true ↔ IsLineStart text position) :
    shape.Finds text position (shape.hitsFrom position atLineStart s) := by
  fun_induction hitsFrom shape position atLineStart s with
  | case1 position atLineStart => exact finds_nil (List.drop_eq_nil_iff.mp here)
  | case2 position atLineStart c rest capture after scanned stop ih =>
    have start : atLineStart = true := by
      cases atLineStart with
      | true => rfl
      | false => simp at scanned
    rw [dif_pos start] at scanned
    obtain ⟨fit, whole, fits⟩ := exists_of_scan? scanned
    have length : (c :: rest).length - after.length = fit.length := by
      rw [whole, List.length_append]
      omega
    have stopAt : stop = position + fit.length := by rw [← length]
    have next : text.drop (position + fit.length) = after := by
      rw [← List.drop_drop, here, whole, List.drop_left]
    -- A fit ends with a parenthesis, so no line starts behind it.
    have noLine : ¬ IsLineStart text (position + fit.length) := by
      obtain ⟨front, paren, -⟩ := exists_closed_of_fits fits
      have last : text[position + front.length]? = some ')' := by
        rw [← List.getElem?_drop, here, whole, paren]
        simp
      rw [paren, List.length_append, List.length_singleton, ← Nat.add_assoc, isLineStart_succ, last]
      decide
    rw [stopAt] at ih ⊢
    exact finds_of_fits (line.mp start) (here.trans whole) fits (ih next (by simp [noLine]))
  | case3 position atLineStart c rest scanned ih =>
    have next : text.drop (position + 1) = rest := by
      rw [← List.drop_drop, here, List.drop_one, List.tail_cons]
    have first : text[position]? = some c := by
      have at0 : (text.drop position)[0]? = some c := by rw [here]; rfl
      simpa [List.getElem?_drop] using at0
    refine finds_of_not_fits ?_ (ih next (by simp [isLineStart_succ, first]))
    intro lineStart stop capture
    rw [dif_pos (line.mpr lineStart)] at scanned
    rw [List.extract_eq_take_drop, here]
    exact not_fits_of_scan?_eq_none scanned _ capture

/-- The hits of a shape are what there is to find in the text. -/
theorem finds_hits (shape : Shape) (text : List Char) : shape.Finds text 0 (shape.hits text) :=
  finds_hitsFrom 0 true text rfl (by simp [IsLineStart])

/-- Only one end and one capture fit from a position. -/
theorem extract_fits_unique {shape : Shape} {text : List Char} {start a b : Nat} {c d : Capture}
    (boundA : a ≤ text.length) (boundB : b ≤ text.length)
    (ha : shape.Fits (text.extract start a) c) (hb : shape.Fits (text.extract start b) d) :
    a = b ∧ c = d := by
  have positiveA := length_pos_of_fits ha
  have positiveB := length_pos_of_fits hb
  simp only [List.extract_eq_take_drop] at ha hb positiveA positiveB
  have same : (text.drop start).take (a - start) ++ (text.drop start).drop (a - start) =
      (text.drop start).take (b - start) ++ (text.drop start).drop (b - start) := by
    simp only [List.take_append_drop]
  obtain ⟨equal, rfl⟩ := fits_unique ha hb same
  have lengths := congrArg List.length equal
  simp only [List.length_take, List.length_drop] at lengths positiveA positiveB
  exact ⟨by omega, rfl⟩

end Shape

end Definition

namespace Extraction

open Definition

private theorem ofShape_of_not_global {shape : Shape} (h : shape.kind ≠ .global)
    (text : List Char) : ofShape text shape = (shape.hits text).map (signature shape) := by
  have all : (shape.hits text).filter (fun hit => !isPrivate text shape hit) = shape.hits text :=
    List.filter_eq_self.mpr fun hit _ => by simp [isPrivate, h]
  rw [ofShape, all]

private theorem ofShape_of_global {shape : Shape} (h : shape.kind = .global) (text : List Char) :
    ofShape text shape = ((shape.hits text).filter fun hit =>
      !endsWithLocal (text.take hit.start)).map (signature shape) := by
  simp [ofShape, isPrivate, h]

/-- Recognition is exact. The hits of each shape are ordered and disjoint, each begins at a line
start and fits the shape there and in no other way, and every line start from which the shape fits
lies inside one. The signatures are those of the hits, shape by shape, without the globals after a
`local`. -/
theorem recognition_exact (text : String) :
    (∀ shape : Shape,
      (shape.hits text.toList).Pairwise (fun a b => a.stop ≤ b.start) ∧
      (∀ hit ∈ shape.hits text.toList,
        hit.start < hit.stop ∧ hit.stop ≤ text.toList.length ∧
        IsLineStart text.toList hit.start ∧
        shape.Fits (text.toList.extract hit.start hit.stop) hit.capture ∧
        ∀ stop c, stop ≤ text.toList.length → shape.Fits (text.toList.extract hit.start stop) c →
          stop = hit.stop ∧ c = hit.capture) ∧
      (∀ start stop c, IsLineStart text.toList start →
        shape.Fits (text.toList.extract start stop) c →
          ∃ hit ∈ shape.hits text.toList, hit.start ≤ start ∧ start < hit.stop)) ∧
    let signatureOf (kind : Kind) (hit : Hit) : Signature :=
      ⟨kind, hit.capture.table.map String.ofList, String.ofList hit.capture.name,
        Parameters.normalize (String.ofList hit.capture.params)⟩
    let isFree (hit : Hit) : Bool := !endsWithLocal (text.toList.take hit.start)
    (ofText text).signatures =
      (Shape.colonStatement.hits text.toList).map (signatureOf .colon) ++
      (Shape.dotStatement.hits text.toList).map (signatureOf .dot) ++
      ((Shape.globalStatement.hits text.toList).filter isFree).map (signatureOf .global) ++
      (Shape.dotAssignment.hits text.toList).map (signatureOf .dot) ++
      ((Shape.globalAssignment.hits text.toList).filter isFree).map (signatureOf .global) := by
  constructor
  · intro shape
    have found := Shape.finds_hits shape text.toList
    refine ⟨found.ordered, ?_, ?_⟩
    · intro hit member
      obtain ⟨-, positive, inside, line, fits⟩ := found.sound hit member
      refine ⟨positive, inside, line, fits, ?_⟩
      intro stop c bound other
      exact Shape.extract_fits_unique bound inside other fits
    · intro start stop c line fits
      exact found.complete start stop c (Nat.zero_le start) line fits
  · have spelled (shape : Shape) : signature shape = fun hit =>
        ⟨shape.kind, hit.capture.table.map String.ofList, String.ofList hit.capture.name,
          Parameters.normalize (String.ofList hit.capture.params)⟩ := by
      funext hit
      simp [signature, Parameters.normalize]
    simp only [ofText, ofSignatures, Shape.all, List.flatMap_cons, List.flatMap_nil,
      List.append_nil, List.append_assoc]
    rw [ofShape_of_not_global (by decide), ofShape_of_not_global (by decide),
      ofShape_of_global (by decide), ofShape_of_not_global (by decide),
      ofShape_of_global (by decide)]
    simp only [spelled, Shape.kind]

end Extraction

end LuaDecl
