import LuaDecl.Comment.Long
import LuaDecl.Proofs.Text.Marks

/-!
# Texts as kept characters and long comments

The declarative reading of the removal of long comments. A text falls into characters at which no
closed long comment begins and into closed long comments, each with the shortest body there is.
There is one such decomposition (`decomposes_iff`), its pieces spell the text (`Decomposes.text`),
and the removal leaves its kept characters (`Decomposes.removeLong`).
-/

namespace LuaDecl.Comment

open Text

/-! ### Closed long comments -/

/-- The closed long comment that begins the text: its level, its body and the text after it. -/
def longComment? (s : List Char) : Option (Nat × List Char × List Char) := do
  let (level, rest) ← longOpener? s
  let (body, after) ← cut? (longClose level) rest
  return (level, body, after)

/-- No closed long comment begins the text, whatever its level. -/
def NoLongComment (s : List Char) : Prop :=
  ∀ level body after, s ≠ longOpen level ++ body ++ longClose level ++ after

theorem longComment?_of_longOpener? {s rest : List Char} {level : Nat}
    (h : longOpener? s = some (level, rest)) :
    longComment? s = (cut? (longClose level) rest).map fun halves => (level, halves) := by
  simp only [longComment?, h, Option.bind_eq_bind, Option.bind_some]
  cases cut? (longClose level) rest <;> rfl

theorem afterLong?_eq_map (s : List Char) :
    afterLong? s = (longComment? s).map fun comment => comment.2.2 := by
  cases opener : longOpener? s with
  | none => simp [afterLong?, longComment?, opener]
  | some found =>
    obtain ⟨level, rest⟩ := found
    rw [longComment?_of_longOpener? opener, Option.map_map]
    simp only [afterLong?, opener, Option.bind_eq_bind, Option.bind_some]
    cases cut? (longClose level) rest <;> rfl

/-- What a closed long comment is: an opener, a body and the first close of the level behind it. -/
theorem longComment?_eq_some_iff {s body after : List Char} {level : Nat} :
    longComment? s = some (level, body, after) ↔
      s = longOpen level ++ body ++ longClose level ++ after ∧
        FirstBehind (longClose level) body := by
  constructor
  · intro found
    obtain ⟨⟨n, rest⟩, opener, -⟩ := Option.bind_eq_some_iff.mp found
    rw [longComment?_of_longOpener? opener] at found
    obtain ⟨halves, cutHere, equal⟩ := Option.map_eq_some_iff.mp found
    cases equal
    obtain ⟨whole, first⟩ := cut?_eq_some_iff.mp cutHere
    exact ⟨by simp [eq_append_of_longOpener? opener, whole], first⟩
  · rintro ⟨rfl, first⟩
    have opener := longOpener?_longOpen_append level (body ++ longClose level ++ after)
    simp only [← List.append_assoc] at opener
    rw [longComment?_of_longOpener? opener, cut?_eq_some_iff.mpr ⟨rfl, first⟩]
    rfl

theorem longComment?_eq_none_iff {s : List Char} : longComment? s = none ↔ NoLongComment s := by
  constructor
  · rintro absent level body after rfl
    have opener := longOpener?_longOpen_append level (body ++ longClose level ++ after)
    simp only [← List.append_assoc] at opener
    rw [longComment?_of_longOpener? opener, Option.map_eq_none_iff] at absent
    exact cut?_eq_none_iff.mp absent ⟨body, after, rfl⟩
  · intro fresh
    cases found : longComment? s with
    | none => rfl
    | some comment =>
      obtain ⟨level, body, after⟩ := comment
      exact absurd (longComment?_eq_some_iff.mp found).1 (fresh level body after)

theorem afterLong?_eq_none_iff {s : List Char} : afterLong? s = none ↔ NoLongComment s := by
  rw [afterLong?_eq_map, Option.map_eq_none_iff, longComment?_eq_none_iff]

theorem afterLong?_of_firstBehind {level : Nat} {body : List Char}
    (first : FirstBehind (longClose level) body) (after : List Char) :
    afterLong? (longOpen level ++ body ++ longClose level ++ after) = some after := by
  rw [afterLong?_eq_map, longComment?_eq_some_iff.mpr ⟨rfl, first⟩]
  rfl

theorem not_mem_longOpen {c : Char} (dash : c ≠ '-') (bracket : c ≠ '[') (sign : c ≠ '=')
    (level : Nat) : c ∉ longOpen level := by
  simp [longOpen, dash, bracket, sign]

theorem not_mem_longClose {c : Char} (bracket : c ≠ ']') (sign : c ≠ '=') (level : Nat) :
    c ∉ longClose level := by
  simp [longClose, bracket, sign]

/-- An opener that begins in a text does not run over two dashes behind it. -/
theorem longOpen_ne_append_dashes {p part : List Char} (nonempty : p ≠ []) {s rest : List Char}
    {level : Nat} (spelled : longOpen level = p ++ part) (tail : '-' :: '-' :: s = part ++ rest) :
    part = [] := by
  cases part with
  | nil => rfl
  | cons c part =>
    obtain ⟨rfl, left⟩ := List.cons.inj tail
    have letters : '-' ∉ '[' :: (List.replicate level '=' ++ ['[']) := by simp
    match p with
    | [] => exact absurd rfl nonempty
    | [_] =>
      obtain ⟨-, second⟩ := List.cons.inj spelled
      obtain ⟨-, rfl⟩ := List.cons.inj second
      simp at left
    | _ :: _ :: more =>
      obtain ⟨-, second⟩ := List.cons.inj spelled
      obtain ⟨-, third⟩ := List.cons.inj second
      rw [third] at letters
      simp at letters

theorem length_lt_of_longComment? {s body after : List Char} {level : Nat}
    (h : longComment? s = some (level, body, after)) : after.length < s.length := by
  apply length_lt_of_afterLong?
  rw [afterLong?_eq_map, h]
  rfl

/-! ### Decompositions -/

/-- A piece of a text: a character that stays, or a closed long comment. -/
inductive Piece where
  | kept (c : Char)
  | comment (level : Nat) (body : List Char)
  deriving DecidableEq, Repr

/-- The characters of a piece. -/
def Piece.text : Piece → List Char
  | kept c => [c]
  | comment level body => longOpen level ++ body ++ longClose level

/-- The characters that stay of a piece. -/
def Piece.rest : Piece → List Char
  | kept c => [c]
  | comment _ _ => []

/-- The text is made of the pieces: a closed long comment is taken wherever one begins, up to its
first close, and any other character stays. -/
inductive Decomposes : List Char → List Piece → Prop where
  | nil : Decomposes [] []
  | keep {c s pieces} : NoLongComment (c :: s) → Decomposes s pieces →
      Decomposes (c :: s) (.kept c :: pieces)
  | drop {level body after pieces} : FirstBehind (longClose level) body →
      Decomposes after pieces →
      Decomposes (longOpen level ++ body ++ longClose level ++ after)
        (.comment level body :: pieces)

/-- The pieces of a text. -/
def decompose (s : List Char) : List Piece :=
  match s with
  | [] => []
  | c :: rest =>
    match _h : longComment? (c :: rest) with
    | some (level, body, after) => .comment level body :: decompose after
    | none => .kept c :: decompose rest
termination_by s.length
decreasing_by
  · exact length_lt_of_longComment? ‹_›
  · simp

theorem decompose_nil : decompose [] = [] := by
  rw [decompose]

theorem decompose_cons_of_none {c : Char} {rest : List Char}
    (h : longComment? (c :: rest) = none) : decompose (c :: rest) = .kept c :: decompose rest := by
  rw [decompose]
  split
  · next h' => rw [h] at h'; cases h'
  · rfl

theorem decompose_of_longComment? {s body after : List Char} {level : Nat}
    (h : longComment? s = some (level, body, after)) :
    decompose s = .comment level body :: decompose after := by
  cases s with
  | nil => simp [longComment?, longOpener?] at h
  | cons c rest =>
    rw [decompose]
    split
    · next h' => rw [h] at h'; cases h'; rfl
    · next h' => rw [h] at h'; cases h'

theorem decomposes_decompose (s : List Char) : Decomposes s (decompose s) := by
  fun_induction decompose s with
  | case1 => exact .nil
  | case2 c rest level body after h ih =>
    obtain ⟨spelled, first⟩ := longComment?_eq_some_iff.mp h
    rw [spelled]
    exact .drop first ih
  | case3 c rest h ih => exact .keep (longComment?_eq_none_iff.mp h) ih

/-- A text has one decomposition. -/
theorem decomposes_iff {s : List Char} {pieces : List Piece} :
    Decomposes s pieces ↔ pieces = decompose s := by
  constructor
  · intro h
    induction h with
    | nil => rw [decompose_nil]
    | keep fresh _ ih => rw [decompose_cons_of_none (longComment?_eq_none_iff.mpr fresh), ih]
    | drop first _ ih =>
      rw [decompose_of_longComment? (longComment?_eq_some_iff.mpr ⟨rfl, first⟩), ih]
  · rintro rfl
    exact decomposes_decompose s

theorem Decomposes.text {s : List Char} {pieces : List Piece} (h : Decomposes s pieces) :
    pieces.flatMap Piece.text = s := by
  induction h with
  | nil => rfl
  | keep _ _ ih => simp [Piece.text, ih]
  | drop _ _ ih => simp [Piece.text, ih]

/-- The removal of long comments leaves the kept characters. -/
theorem Decomposes.removeLong {s : List Char} {pieces : List Piece} (h : Decomposes s pieces) :
    removeLong s = pieces.flatMap Piece.rest := by
  induction h with
  | nil => exact removeLong_nil
  | keep fresh _ ih =>
    rw [removeLong_cons_of_none (afterLong?_eq_none_iff.mpr fresh), ih]
    rfl
  | drop first _ ih =>
    rw [removeLong_of_afterLong? (afterLong?_of_firstBehind first _), ih]
    rfl

end LuaDecl.Comment
