import LuaDecl.Proofs.Text.Utf8
import LuaDecl.Text.Bytes

/-!
# Byte positions between characters

A text can be cut at the byte positions where its characters begin and at its end, and nowhere else
(`isSome_dropBytes?_iff`). At such a position the byte of an ASCII character stands if and only
if the character does, since no other character has that byte (`getElem?_encode_iff`).
-/

namespace LuaDecl.Text

open String (utf8EncodeChar)

variable {s front : List Char} {position : Nat}

/-! ### Cuts -/

theorem byteCount_append (s t : List Char) : byteCount (s ++ t) = byteCount s + byteCount t := by
  induction s with
  | nil => simp [byteCount]
  | cons c s ih => simp only [List.cons_append, byteCount, ih, Nat.add_assoc]

/-- A byte position is in the text, and not inside a character. -/
def IsCut (s : List Char) (position : Nat) : Prop :=
  ∃ before after, s = before ++ after ∧ position = byteCount before

theorem isCut_append (before after : List Char) : IsCut (before ++ after) (byteCount before) :=
  ⟨before, after, rfl, rfl⟩

theorem IsCut.le (cut : IsCut s position) : position ≤ byteCount s := by
  obtain ⟨before, after, rfl, rfl⟩ := cut
  rw [byteCount_append]
  exact Nat.le_add_right _ _

/-- A text is cut where the position is behind its first part. -/
theorem splitAtByte?_eq_some_iff {before after : List Char} :
    splitAtByte? position s = some (before, after) ↔
      s = before ++ after ∧ position = byteCount before := by
  constructor
  · intro found
    refine ⟨append_of_splitAtByte? found, ?_⟩
    induction s generalizing position before with
    | nil =>
      unfold splitAtByte? at found
      split at found
      · next zero => cases found; exact zero
      · cases found
    | cons c rest ih =>
      unfold splitAtByte? at found
      split at found
      · next zero => cases found; exact zero
      · split at found
        · cases found
        · next outside =>
          obtain ⟨halves, cut, equal⟩ := Option.map_eq_some_iff.mp found
          cases equal
          have inner := ih cut
          rw [byteCount]
          omega
  · rintro ⟨rfl, rfl⟩
    exact splitAtByte?_byteCount before after

/-- The text has a rest from every cut on, and from no other position. -/
theorem isSome_dropBytes?_iff : (dropBytes? position s).isSome ↔ IsCut s position := by
  rw [dropBytes?, Option.isSome_map, Option.isSome_iff_exists, IsCut]
  simp only [Prod.exists, splitAtByte?_eq_some_iff]

example : dropBytes? 1 ['é', 'a'] = none ∧ dropBytes? 2 ['é', 'a'] = some ['a'] := by decide

theorem dropBytes?_byteCount (before after : List Char) :
    dropBytes? (byteCount before) (before ++ after) = some after := by
  rw [dropBytes?, splitAtByte?_byteCount, Option.map_some]

theorem sliceBytes?_byteCount (before part after : List Char) :
    sliceBytes? (byteCount before) (byteCount (before ++ part)) (before ++ part ++ after) =
      some part := by
  have length : byteCount (before ++ part) - byteCount before = byteCount part := by
    rw [byteCount_append, Nat.add_sub_cancel_left]
  rw [sliceBytes?, List.append_assoc, splitAtByte?_byteCount, length]
  simp only [Option.bind_eq_bind, Option.bind_some, splitAtByte?_byteCount, Option.pure_def]

/-! ### Bytes -/

theorem length_encode (s : List Char) : (encode s).length = byteCount s := by
  induction s with
  | nil => rfl
  | cons c s ih =>
    rw [encode, List.flatMap_cons, List.length_append, String.length_utf8EncodeChar, byteCount,
      ← ih, encode]

theorem utf8EncodeChar_head_iff {byte : UInt8} (small : byte < 0x80) {c : Char} :
    (utf8EncodeChar c)[0]? = some byte ↔ c = Char.ofUInt8 byte := by
  constructor
  · intro head
    by_cases size : c.utf8Size = 1
    · obtain ⟨own, ownSmall, rfl⟩ := Utf8.exists_ofUInt8_of_utf8Size size
      rw [Utf8.utf8EncodeChar_ofUInt8 ownSmall] at head
      cases head
      rfl
    · have large := Utf8.le_of_mem_utf8EncodeChar size (List.mem_of_getElem? head)
      exact absurd small (UInt8.not_lt.mpr large)
  · rintro rfl
    rw [Utf8.utf8EncodeChar_ofUInt8 small]
    rfl

/-- At a cut, the byte of an ASCII character is read if and only if the character stands there. -/
theorem getElem?_encode_iff {byte : UInt8} (small : byte < 0x80) (front s : List Char) :
    (encode (front ++ s))[byteCount front]? = some byte ↔ s.head? = some (Char.ofUInt8 byte) := by
  have behind : (encode (front ++ s))[byteCount front]? = (encode s)[0]? := by
    rw [encode, List.flatMap_append, ← length_encode front, ← encode, ← encode,
      List.getElem?_append_right (Nat.le_refl _), Nat.sub_self]
  cases s with
  | nil =>
    rw [behind]
    simp [encode]
  | cons c rest =>
    have positive := Utf8.length_utf8EncodeChar_pos c
    rw [behind, encode, List.flatMap_cons, List.getElem?_append_left positive,
      utf8EncodeChar_head_iff small, List.head?_cons, Option.some_inj]

end LuaDecl.Text
