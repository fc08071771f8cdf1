import LuaDecl.Proofs.Comment.Decomposition

/-!
# Segments between long comments

A text as its closed long comments and the segments around them: each comment runs to its first
close, and from no place in a segment does another one begin. Every text is read in this way and in
no other (`separates_iff`). The pieces of a decomposition are the same reading character by
character, so the removal of long comments leaves the segments. An opener without a close is part of
a segment, and what follows it is read as it would be alone (`Separates.opener`).
-/

namespace LuaDecl.Comment

open Text

/-- A closed long comment and the segment behind it. -/
structure Block where
  level : Nat
  body : List Char
  segment : List Char
  deriving DecidableEq, Repr

/-- The characters of the comment. -/
def Block.comment (b : Block) : List Char :=
  longOpen b.level ++ b.body ++ longClose b.level

/-- The characters of blocks. -/
def spell (blocks : List Block) : List Char :=
  blocks.flatMap fun b => b.comment ++ b.segment

/-- A text as segments with a long comment between each two neighbours. -/
structure Segments where
  first : List Char
  blocks : List Block
  deriving DecidableEq, Repr

namespace Segments

/-- The characters of segments and comments. -/
def text (x : Segments) : List Char :=
  x.first ++ spell x.blocks

/-- The characters of the segments. -/
def kept (x : Segments) : List Char :=
  x.first ++ x.blocks.flatMap Block.segment

/-- The segment is one of the text, and the blocks are what follows it. -/
def Holds (x : Segments) (segment : List Char) (later : List Block) : Prop :=
  (segment = x.first ∧ later = x.blocks) ∨
    ∃ before b, x.blocks = before ++ b :: later ∧ segment = b.segment

/-- The pieces of the text, character by character. -/
def pieces (x : Segments) : List Piece :=
  x.first.map .kept ++ x.blocks.flatMap fun b => .comment b.level b.body :: b.segment.map .kept

/-- Pieces as segments and comments. -/
def ofPieces : List Piece → Segments
  | [] => ⟨[], []⟩
  | .kept c :: pieces => ⟨c :: (ofPieces pieces).first, (ofPieces pieces).blocks⟩
  | .comment level body :: pieces =>
    ⟨[], ⟨level, body, (ofPieces pieces).first⟩ :: (ofPieces pieces).blocks⟩

end Segments

/-- From no place in the segment, read with what follows it, does a closed long comment begin. -/
def Quiet (segment rest : List Char) : Prop :=
  ∀ s, s <:+ segment → s ≠ [] → NoLongComment (s ++ rest)

/-- The segments and comments are those of the text. -/
structure Separates (s : List Char) (x : Segments) : Prop where
  text : x.text = s
  shortest : ∀ b ∈ x.blocks, FirstBehind (longClose b.level) b.body
  quiet : ∀ segment later, x.Holds segment later → Quiet segment (spell later)

/-! ### Parts of a reading -/

theorem Segments.holds_first (x : Segments) : x.Holds x.first x.blocks :=
  Or.inl ⟨rfl, rfl⟩

theorem Segments.holds_nil_cons_iff {b : Block} {blocks later : List Block} {segment : List Char} :
    Holds ⟨[], b :: blocks⟩ segment later ↔
      (segment = [] ∧ later = b :: blocks) ∨ Holds ⟨b.segment, blocks⟩ segment later := by
  refine or_congr Iff.rfl ?_
  constructor
  · rintro ⟨before, other, split, rfl⟩
    rcases List.cons_eq_append_iff.mp split with ⟨rfl, tail⟩ | ⟨front, rfl, tail⟩
    · obtain ⟨rfl, rfl⟩ := List.cons.inj tail
      exact Or.inl ⟨rfl, rfl⟩
    · exact Or.inr ⟨front, other, tail, rfl⟩
  · rintro (⟨rfl, rfl⟩ | ⟨before, other, rfl, rfl⟩)
    · exact ⟨[], b, rfl, rfl⟩
    · exact ⟨b :: before, other, rfl, rfl⟩

theorem Segments.Holds.trans {x : Segments} {segment s : List Char} {later blocks : List Block}
    (h : x.Holds segment later) (part : Holds ⟨segment, later⟩ s blocks) : x.Holds s blocks := by
  rcases part with ⟨rfl, rfl⟩ | ⟨inner, b, rfl, rfl⟩
  · exact h
  · right
    rcases h with ⟨-, equal⟩ | ⟨before, front, equal, -⟩
    · exact ⟨inner, b, equal.symm, rfl⟩
    · exact ⟨before ++ front :: inner, b, by simp [equal], rfl⟩

theorem Segments.Holds.subset {x : Segments} {segment : List Char} {later : List Block}
    (h : x.Holds segment later) : later ⊆ x.blocks := by
  rcases h with ⟨-, rfl⟩ | ⟨before, b, equal, -⟩
  · exact List.Subset.refl _
  · rw [equal]
    intro other member
    simp [member]

theorem Quiet.of_suffix {a segment rest : List Char} (h : Quiet segment rest)
    (part : a <:+ segment) : Quiet a rest := by
  intro s suffix
  exact h s (suffix.trans part)

theorem quiet_nil (rest : List Char) : Quiet [] rest := by
  intro s suffix nonempty
  exact absurd (List.suffix_nil.mp suffix) nonempty

theorem quiet_cons_iff {c : Char} {segment rest : List Char} :
    Quiet (c :: segment) rest ↔ NoLongComment (c :: (segment ++ rest)) ∧ Quiet segment rest := by
  constructor
  · intro h
    exact ⟨h (c :: segment) List.suffix_rfl (by simp), h.of_suffix (List.suffix_cons c segment)⟩
  · rintro ⟨here, further⟩ s suffix nonempty
    rcases List.suffix_cons_iff.mp suffix with rfl | inner
    · exact here
    · exact further s inner nonempty

/-- From the start of a segment on, the text is read as before. -/
theorem Separates.tail {s : List Char} {x : Segments} (h : Separates s x) {segment : List Char}
    {later : List Block} (part : x.Holds segment later) :
    Separates (segment ++ spell later) ⟨segment, later⟩ where
  text := rfl
  shortest := fun b member => h.shortest b (part.subset member)
  quiet := fun _ _ inner => h.quiet _ _ (part.trans inner)

/-- From a place in the first segment on, the text is read as before. -/
theorem Separates.of_append {s a b : List Char} {blocks : List Block}
    (h : Separates s ⟨a ++ b, blocks⟩) : Separates (b ++ spell blocks) ⟨b, blocks⟩ where
  text := rfl
  shortest := h.shortest
  quiet := by
    rintro segment later (⟨rfl, rfl⟩ | inner)
    · exact (h.quiet _ _ (Segments.holds_first _)).of_suffix (List.suffix_append a _)
    · exact h.quiet _ _ (Or.inr inner)

/-! ### Readings and pieces -/

theorem separates_nil : Separates [] ⟨[], []⟩ where
  text := rfl
  shortest := by simp
  quiet := by
    rintro segment later (⟨rfl, rfl⟩ | ⟨before, b, equal, -⟩)
    · exact quiet_nil _
    · simp at equal

theorem separates_cons_iff {c : Char} {s first : List Char} {blocks : List Block} :
    Separates (c :: s) ⟨c :: first, blocks⟩ ↔
      NoLongComment (c :: s) ∧ Separates s ⟨first, blocks⟩ := by
  constructor
  · intro h
    have whole : first ++ spell blocks = s := (List.cons.inj h.text).2
    have fresh := (quiet_cons_iff.mp (h.quiet _ _ (Segments.holds_first _))).1
    rw [whole] at fresh
    refine ⟨fresh, ?_⟩
    have rest := Separates.of_append (a := [c]) h
    rwa [whole] at rest
  · rintro ⟨fresh, h⟩
    have whole : first ++ spell blocks = s := h.text
    refine ⟨by simp [Segments.text, whole], h.shortest, ?_⟩
    rintro segment later (⟨rfl, rfl⟩ | inner)
    · exact quiet_cons_iff.mpr ⟨by rwa [whole], h.quiet _ _ (Segments.holds_first _)⟩
    · exact h.quiet _ _ (Or.inr inner)

theorem separates_block_iff {s : List Char} {b : Block} {blocks : List Block} :
    Separates s ⟨[], b :: blocks⟩ ↔
      FirstBehind (longClose b.level) b.body ∧
        ∃ after, s = b.comment ++ after ∧ Separates after ⟨b.segment, blocks⟩ := by
  constructor
  · intro h
    refine ⟨h.shortest b List.mem_cons_self, b.segment ++ spell blocks, ?_, ?_⟩
    · rw [← h.text]
      simp [Segments.text, spell]
    · exact h.tail (Segments.holds_nil_cons_iff.mpr (Or.inr (Segments.holds_first _)))
  · rintro ⟨first, after, rfl, h⟩
    refine ⟨?_, ?_, ?_⟩
    · rw [← h.text]
      simp [Segments.text, spell]
    · exact List.forall_mem_cons.mpr ⟨first, h.shortest⟩
    · intro segment later part
      rcases Segments.holds_nil_cons_iff.mp part with ⟨rfl, -⟩ | inner
      · exact quiet_nil _
      · exact h.quiet _ _ inner

theorem Segments.ofPieces_kept_append (t : List Char) (pieces : List Piece) :
    ofPieces (t.map .kept ++ pieces) =
      ⟨t ++ (ofPieces pieces).first, (ofPieces pieces).blocks⟩ := by
  induction t with
  | nil => rfl
  | cons c t ih => rw [List.map_cons, List.cons_append, ofPieces, ih, List.cons_append]

theorem Segments.ofPieces_pieces (x : Segments) : ofPieces x.pieces = x := by
  obtain ⟨first, blocks⟩ := x
  rw [pieces, ofPieces_kept_append]
  induction blocks generalizing first with
  | nil => simp [ofPieces]
  | cons b blocks ih =>
    have behind := ih b.segment
    rw [List.flatMap_cons, List.cons_append, ofPieces, ofPieces_kept_append, behind,
      List.append_nil]

theorem Decomposes.separates {s : List Char} {pieces : List Piece} (h : Decomposes s pieces) :
    Separates s (Segments.ofPieces pieces) := by
  induction h with
  | nil => exact separates_nil
  | keep fresh _ ih => exact separates_cons_iff.mpr ⟨fresh, ih⟩
  | drop first _ ih => exact separates_block_iff.mpr ⟨first, _, rfl, ih⟩

theorem Separates.decomposes {s : List Char} {x : Segments} (h : Separates s x) :
    Decomposes s x.pieces := by
  obtain ⟨first, blocks⟩ := x
  induction blocks generalizing s first with
  | nil =>
    induction first generalizing s with
    | nil =>
      obtain rfl : [] = s := h.text
      exact .nil
    | cons c first ih =>
      obtain rfl := h.text
      obtain ⟨fresh, rest⟩ := separates_cons_iff.mp h
      exact .keep fresh (ih rest)
  | cons b blocks ih =>
    induction first generalizing s with
    | nil =>
      obtain ⟨shortest, after, rfl, rest⟩ := separates_block_iff.mp h
      exact .drop shortest (ih _ rest)
    | cons c first ihFirst =>
      obtain rfl := h.text
      obtain ⟨fresh, rest⟩ := separates_cons_iff.mp h
      exact .keep fresh (ihFirst rest)

/-- A text is read in one way. -/
theorem separates_iff {s : List Char} {x : Segments} :
    Separates s x ↔ x = Segments.ofPieces (decompose s) := by
  constructor
  · intro h
    rw [← decomposes_iff.mp h.decomposes, Segments.ofPieces_pieces]
  · rintro rfl
    exact (decomposes_decompose s).separates

theorem Segments.flatMap_rest_pieces (x : Segments) : x.pieces.flatMap Piece.rest = x.kept := by
  have chars (t : List Char) : (t.map Piece.kept).flatMap Piece.rest = t := by
    induction t with
    | nil => rfl
    | cons c t ih => simpa [Piece.rest] using ih
  have blocks : (x.blocks.flatMap fun b =>
      Piece.comment b.level b.body :: b.segment.map .kept).flatMap Piece.rest =
        x.blocks.flatMap Block.segment := by
    rw [List.flatMap_assoc]
    congr 1
    funext b
    exact chars b.segment
  rw [pieces, List.flatMap_append, chars, blocks, kept]

/-- The removal of long comments leaves the segments. -/
theorem Separates.removeLong {s : List Char} {x : Segments} (h : Separates s x) :
    removeLong s = x.kept := by
  rw [h.decomposes.removeLong, Segments.flatMap_rest_pieces]

/-! ### Openers without a close -/

/-- The characters of blocks begin with two dashes, if there are any. -/
theorem spell_eq_nil_or (blocks : List Block) :
    spell blocks = [] ∨ ∃ rest, spell blocks = '-' :: '-' :: rest := by
  cases blocks with
  | nil => exact Or.inl rfl
  | cons b blocks => exact Or.inr ⟨_, by simp [spell, Block.comment, longOpen]; rfl⟩

/-- An opener that begins in a segment has no close behind it and lies in the segment as a whole.
What follows it is read as it would be alone, so it hides no comment. -/
theorem Separates.opener {s : List Char} {x : Segments} (h : Separates s x) {a b q : List Char}
    {later : List Block} {level : Nat} (part : x.Holds (a ++ b) later) (nonempty : b ≠ [])
    (opens : b ++ spell later = longOpen level ++ q) :
    ¬ longClose level <:+: q ∧
      ∃ rest, b = longOpen level ++ rest ∧ Separates q ⟨rest, later⟩ := by
  have fresh := h.quiet _ _ part b (List.suffix_append a b) nonempty
  rw [opens] at fresh
  constructor
  · rintro ⟨body, after, rfl⟩
    exact fresh level body after (by simp)
  · rcases List.append_eq_append_iff.mp opens with ⟨across, spelled, tail⟩ | ⟨rest, rfl, rfl⟩
    · -- The opener would run over the dashes of the next comment.
      obtain rfl : across = [] := by
        rcases spell_eq_nil_or later with empty | ⟨dashes, begins⟩
        · rw [empty] at tail
          exact (List.append_eq_nil_iff.mp tail.symm).1
        · exact longOpen_ne_append_dashes nonempty spelled (begins ▸ tail)
      rw [List.append_nil] at spelled
      rw [List.nil_append] at tail
      have rest := Separates.of_append (a := a ++ b) (b := []) (by simpa using h.tail part)
      exact ⟨[], by simp [spelled], by simpa [← tail] using rest⟩
    · refine ⟨rest, rfl, ?_⟩
      apply Separates.of_append (a := a ++ longOpen level)
      simpa using h.tail part

/-- The removal of long comments, read as a whole. A text falls in one way into segments and closed
long comments, where each comment ends at its first close and from no place in a segment another one
begins. The removal leaves the segments. An opener in a segment has no close behind it; it is left
as it is, and what follows it is read as it would be alone. -/
theorem removeLong_joins_segments (source : String) :
    ∃ x : Segments, (∀ other, Separates source.toList other ↔ other = x) ∧
      removeLong source.toList = x.kept ∧
      ∀ a b later level q, x.Holds (a ++ b) later → b ≠ [] →
        b ++ spell later = longOpen level ++ q →
          ¬ longClose level <:+: q ∧
            ∃ rest, b = longOpen level ++ rest ∧ Separates q ⟨rest, later⟩ := by
  have reads : Separates source.toList (Segments.ofPieces (decompose source.toList)) :=
    separates_iff.mpr rfl
  refine ⟨_, fun other => separates_iff, reads.removeLong, ?_⟩
  intro a b later level q part nonempty opens
  exact reads.opener part nonempty opens

/-- The first opener has no close of its level, the second one has. -/
example : removeLong "--[==[x--[[y]=]]z".toList = "--[==[xz".toList := by
  decide +kernel

end LuaDecl.Comment
