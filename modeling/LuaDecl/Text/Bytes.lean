import LuaDecl.Text.Pieces

/-!
# Byte positions

A character takes one to four bytes in UTF-8, and a text can be cut at a byte position only between
two characters. Main statements: the halves of a cut are the text, and every place between two
characters is a cut.
-/

namespace LuaDecl.Text

/-- The number of bytes that a text takes. -/
def byteCount : List Char → Nat
  | [] => 0
  | c :: s => c.utf8Size + byteCount s

/-- The text cut at a byte position. Inside a character and behind the end there is no cut. -/
def splitAtByte? (position : Nat) (s : List Char) : Option (List Char × List Char) :=
  match s with
  | [] => if position = 0 then some ([], []) else none
  | c :: rest =>
    if position = 0 then some ([], c :: rest)
    else if position < c.utf8Size then none
    else
      (splitAtByte? (position - c.utf8Size) rest).map fun halves => (c :: halves.1, halves.2)

/-- The part of a text between two byte positions. -/
def sliceBytes? (start stop : Nat) (s : List Char) : Option (List Char) := do
  let (_, rest) ← splitAtByte? start s
  let (part, _) ← splitAtByte? (stop - start) rest
  return part

/-- The text from a byte position on. -/
def dropBytes? (position : Nat) (s : List Char) : Option (List Char) :=
  (splitAtByte? position s).map Prod.snd

/-- The byte position at which the mark occurs first. -/
def findBytes? (mark s : List Char) : Option Nat :=
  (cut? mark s).map fun halves => byteCount halves.1

/-- The bytes of a text. -/
def encode (s : List Char) : List UInt8 :=
  s.flatMap String.utf8EncodeChar

theorem append_of_splitAtByte? {position : Nat} {s before after : List Char}
    (h : splitAtByte? position s = some (before, after)) : s = before ++ after := by
  induction s generalizing position before with
  | nil =>
    unfold splitAtByte? at h
    split at h
    · obtain ⟨rfl, rfl⟩ := Prod.mk.inj (Option.some.inj h)
      rfl
    · simp at h
  | cons c rest ih =>
    unfold splitAtByte? at h
    split at h
    · obtain ⟨rfl, rfl⟩ := Prod.mk.inj (Option.some.inj h)
      rfl
    · split at h
      · simp at h
      · obtain ⟨⟨b, a⟩, hb, he⟩ := Option.map_eq_some_iff.mp h
        obtain ⟨rfl, rfl⟩ := Prod.mk.inj he
        rw [ih hb]
        rfl

theorem splitAtByte?_byteCount (before after : List Char) :
    splitAtByte? (byteCount before) (before ++ after) = some (before, after) := by
  induction before with
  | nil => cases after <;> simp [byteCount, splitAtByte?]
  | cons c before ih =>
    have size := c.utf8Size_pos
    have positive : c.utf8Size + byteCount before ≠ 0 := by omega
    have inside : ¬ c.utf8Size + byteCount before < c.utf8Size := by omega
    have left : c.utf8Size + byteCount before - c.utf8Size = byteCount before := by omega
    simp only [byteCount, List.cons_append, splitAtByte?, if_neg positive, if_neg inside, left, ih,
      Option.map_some]

end LuaDecl.Text
