import LuaDecl.Text.Utf8

/-!
# Reading UTF-8 back

What lossy reading makes of bytes, described without positions: where the bytes of a character stand
the character is taken, and any other byte is dropped (`reads_iff`). What is written as UTF-8 is
read back as it was, since each character begins where the one before it ends
(`decodeLossy_toUTF8`). A character below 0x80 is one byte, and the bytes of any other character are
all larger.
-/

namespace LuaDecl.Text.Utf8

open String (utf8EncodeChar)

variable {bytes : ByteArray} {position : Nat}

/-! ### One step -/

theorem charsFrom_of_some {c : Char} (found : bytes.utf8DecodeChar? position = some c) :
    charsFrom bytes position = c :: charsFrom bytes (position + c.utf8Size) := by
  have inside : position < bytes.size :=
    ByteArray.lt_size_of_isSome_utf8DecodeChar? (by simp [found])
  rw [charsFrom, dif_pos inside, found]

theorem charsFrom_of_none (inside : position < bytes.size)
    (stray : bytes.utf8DecodeChar? position = none) :
    charsFrom bytes position = charsFrom bytes (position + 1) := by
  rw [charsFrom, dif_pos inside, stray]

theorem charsFrom_of_size_le (outside : bytes.size ≤ position) : charsFrom bytes position = [] := by
  rw [charsFrom, dif_neg (Nat.not_lt.mpr outside)]

/-! ### What stands before a position -/

theorem utf8DecodeChar?_append (front bytes : ByteArray) (position : Nat) :
    (front ++ bytes).utf8DecodeChar? (front.size + position) = bytes.utf8DecodeChar? position := by
  rw [ByteArray.utf8DecodeChar?_eq_utf8DecodeChar?_extract (b := front ++ bytes),
    ByteArray.utf8DecodeChar?_eq_utf8DecodeChar?_extract (b := bytes), ByteArray.size_append,
    ByteArray.extract_append_size_add]

/-- From a position behind them, the bytes at the front have no part in what is read. -/
theorem charsFrom_append (front bytes : ByteArray) (position : Nat) :
    charsFrom (front ++ bytes) (front.size + position) = charsFrom bytes position := by
  have whole := utf8DecodeChar?_append front bytes position
  have size := ByteArray.size_append (a := front) (b := bytes)
  induction position using charsFrom.induct bytes with
  | case1 position inside c found ih =>
    rw [charsFrom_of_some found, charsFrom_of_some (whole.trans found), Nat.add_assoc,
      ih (utf8DecodeChar?_append front bytes _)]
  | case2 position inside stray ih =>
    rw [charsFrom_of_none inside stray, charsFrom_of_none (by omega) (whole.trans stray),
      Nat.add_assoc, ih (utf8DecodeChar?_append front bytes _)]
  | case3 position outside =>
    rw [charsFrom_of_size_le (Nat.not_lt.mp outside), charsFrom_of_size_le (by omega)]

theorem charsFrom_toByteArray_append (front back : List UInt8) :
    charsFrom (front ++ back).toByteArray front.length = charsFrom back.toByteArray 0 := by
  have behind := charsFrom_append front.toByteArray back.toByteArray 0
  rwa [← List.toByteArray_append, List.size_toByteArray, Nat.add_zero] at behind

/-! ### The bytes of characters -/

theorem toByteArray_data (bytes : ByteArray) : bytes.data.toList.toByteArray = bytes := by
  ext1
  rw [List.data_toByteArray, Array.toArray_toList]

theorem data_toUTF8 (s : String) : s.toUTF8.data.toList = s.toList.flatMap utf8EncodeChar := by
  rw [String.toUTF8_eq_toByteArray, ← String.utf8Encode_toList, List.utf8Encode,
    List.data_toByteArray]

/-- A character begins the bytes if and only if it is decoded there. -/
theorem isPrefix_iff_utf8DecodeChar? {c : Char} {bytes : List UInt8} :
    utf8EncodeChar c <+: bytes ↔ bytes.toByteArray.utf8DecodeChar? 0 = some c := by
  constructor
  · rintro ⟨rest, rfl⟩
    rw [List.toByteArray_append]
    exact ByteArray.utf8DecodeChar?_utf8EncodeChar_append
  · intro found
    obtain ⟨rest, whole⟩ := ByteArray.exists_of_utf8DecodeChar?_eq_some found
    refine ⟨rest.data.toList, ?_⟩
    rw [← List.toByteArray_inj, whole, List.toByteArray_append, toByteArray_data]

theorem length_utf8EncodeChar_pos (c : Char) : 0 < (utf8EncodeChar c).length := by
  rw [String.length_utf8EncodeChar]
  exact c.utf8Size_pos

theorem val_ofUInt8 (byte : UInt8) : (Char.ofUInt8 byte).val = byte.toUInt32 := rfl

theorem utf8EncodeChar_ofUInt8 {byte : UInt8} (small : byte < 0x80) :
    utf8EncodeChar (Char.ofUInt8 byte) = [byte] := by
  have size : (Char.ofUInt8 byte).utf8Size = 1 := by
    rw [Char.utf8Size_eq_one_iff, val_ofUInt8, UInt32.le_iff_toNat_le, UInt8.toNat_toUInt32]
    exact Nat.le_of_lt_succ (UInt8.lt_iff_toNat_lt.mp small)
  rw [String.utf8EncodeChar_eq_singleton size, val_ofUInt8, UInt8.toUInt8_toUInt32]

/-- A character of one byte is that byte. -/
theorem exists_ofUInt8_of_utf8Size {c : Char} (size : c.utf8Size = 1) :
    ∃ byte : UInt8, byte < 0x80 ∧ Char.ofUInt8 byte = c := by
  have bound : c.val.toNat ≤ 127 := UInt32.le_iff_toNat_le.mp (Char.utf8Size_eq_one_iff.mp size)
  have kept : c.val.toUInt8.toNat = c.val.toNat := by
    rw [UInt32.toNat_toUInt8]
    exact Nat.mod_eq_of_lt (by omega)
  refine ⟨c.val.toUInt8, ?_, ?_⟩
  · rw [UInt8.lt_iff_toNat_lt, kept]
    exact Nat.lt_succ_of_le bound
  · apply Char.ext
    rw [val_ofUInt8, ← UInt32.toNat_inj, UInt8.toNat_toUInt32, kept]

/-- A character of more than one byte has large bytes only: each has its highest bit set. -/
theorem le_of_mem_utf8EncodeChar {c : Char} (size : c.utf8Size ≠ 1) {byte : UInt8}
    (member : byte ∈ utf8EncodeChar c) : 0x80 ≤ byte := by
  have le_or (a b : UInt8) (large : 0x80 ≤ b) : 0x80 ≤ a ||| b := by
    rw [UInt8.le_iff_toNat_le, UInt8.toNat_or] at *
    exact Nat.le_trans large Nat.right_le_or
  rcases c.utf8Size_eq with one | two | three | four
  · exact absurd one size
  · rw [String.utf8EncodeChar_eq_cons_cons two] at member
    simp only [List.mem_cons, List.not_mem_nil, or_false] at member
    rcases member with rfl | rfl <;> exact le_or _ _ (by decide)
  · rw [String.utf8EncodeChar_eq_cons_cons_cons three] at member
    simp only [List.mem_cons, List.not_mem_nil, or_false] at member
    rcases member with rfl | rfl | rfl <;> exact le_or _ _ (by decide)
  · rw [String.utf8EncodeChar_eq_cons_cons_cons_cons four] at member
    simp only [List.mem_cons, List.not_mem_nil, or_false] at member
    rcases member with rfl | rfl | rfl | rfl <;> exact le_or _ _ (by decide)

/-! ### What is read, without positions -/

/-- The bytes are read as the characters: the character whose bytes come next is taken, and a byte
at which no character begins is dropped. -/
inductive Reads : List UInt8 → List Char → Prop
  | nil : Reads [] []
  | char {c : Char} {bytes : List UInt8} {chars : List Char} : Reads bytes chars →
      Reads (utf8EncodeChar c ++ bytes) (c :: chars)
  | stray {byte : UInt8} {bytes : List UInt8} {chars : List Char} :
      (∀ c, ¬ utf8EncodeChar c <+: byte :: bytes) → Reads bytes chars →
      Reads (byte :: bytes) chars

theorem charsFrom_nil : charsFrom [].toByteArray 0 = [] :=
  charsFrom_of_size_le (Nat.le_refl _)

theorem charsFrom_char (c : Char) (bytes : List UInt8) :
    charsFrom (utf8EncodeChar c ++ bytes).toByteArray 0 = c :: charsFrom bytes.toByteArray 0 := by
  have found := isPrefix_iff_utf8DecodeChar?.mp (List.prefix_append (utf8EncodeChar c) bytes)
  rw [charsFrom_of_some found, Nat.zero_add, ← String.length_utf8EncodeChar,
    charsFrom_toByteArray_append]

theorem charsFrom_stray {byte : UInt8} {bytes : List UInt8}
    (stray : (byte :: bytes).toByteArray.utf8DecodeChar? 0 = none) :
    charsFrom (byte :: bytes).toByteArray 0 = charsFrom bytes.toByteArray 0 := by
  rw [charsFrom_of_none (by simp) stray]
  exact charsFrom_toByteArray_append [byte] bytes

theorem Reads.eq_charsFrom {bytes : List UInt8} {chars : List Char} (h : Reads bytes chars) :
    chars = charsFrom bytes.toByteArray 0 := by
  induction h with
  | nil => exact charsFrom_nil.symm
  | char _ ih => rw [charsFrom_char, ih]
  | @stray byte bytes chars noChar _ ih =>
    have none : (byte :: bytes).toByteArray.utf8DecodeChar? 0 = none := by
      rw [Option.eq_none_iff_forall_ne_some]
      intro c found
      exact noChar c (isPrefix_iff_utf8DecodeChar?.mpr found)
    rw [charsFrom_stray none, ih]

theorem reads_charsFrom : (bytes : List UInt8) → Reads bytes (charsFrom bytes.toByteArray 0)
  | [] => by
    rw [charsFrom_nil]
    exact .nil
  | byte :: bytes => by
    cases found : (byte :: bytes).toByteArray.utf8DecodeChar? 0 with
    | some c =>
      obtain ⟨rest, whole⟩ := isPrefix_iff_utf8DecodeChar?.mpr found
      have shorter : rest.length < (byte :: bytes).length := by
        have lengths := congrArg List.length whole
        rw [List.length_append] at lengths
        have positive := length_utf8EncodeChar_pos c
        omega
      rw [← whole, charsFrom_char]
      exact .char (reads_charsFrom rest)
    | none =>
      rw [charsFrom_stray found]
      refine .stray (fun c begins => ?_) (reads_charsFrom bytes)
      rw [isPrefix_iff_utf8DecodeChar?.mp begins] at found
      cases found
termination_by bytes => bytes.length
decreasing_by
  · exact Nat.lt_succ_self _
  · exact shorter

/-- Bytes are read in one way. -/
theorem reads_iff {bytes : List UInt8} {chars : List Char} :
    Reads bytes chars ↔ chars = charsFrom bytes.toByteArray 0 :=
  ⟨Reads.eq_charsFrom, fun equal => equal ▸ reads_charsFrom bytes⟩

theorem decodeLossy_eq_of_reads {bytes : ByteArray} {chars : List Char}
    (h : Reads bytes.data.toList chars) : decodeLossy bytes = String.ofList chars := by
  rw [decodeLossy, reads_iff.mp h, toByteArray_data]

theorem reads_decodeLossy (bytes : ByteArray) :
    Reads bytes.data.toList (decodeLossy bytes).toList := by
  have read := reads_charsFrom bytes.data.toList
  rwa [toByteArray_data, ← String.toList_ofList (l := charsFrom bytes 0)] at read

/-! ### Whole texts -/

/-- The characters of a text are read, and then what follows them. -/
theorem Reads.chars_append (chars : List Char) {bytes : List UInt8} {more : List Char}
    (h : Reads bytes more) : Reads (chars.flatMap utf8EncodeChar ++ bytes) (chars ++ more) := by
  induction chars with
  | nil => exact h
  | cons c chars ih =>
    rw [List.flatMap_cons, List.append_assoc]
    exact .char ih

theorem reads_chars (chars : List Char) : Reads (chars.flatMap utf8EncodeChar) chars := by
  have read := Reads.nil.chars_append chars
  rwa [List.append_nil, List.append_nil] at read

/-- What is written is read back. -/
theorem decodeLossy_toUTF8 (s : String) : decodeLossy s.toUTF8 = s := by
  have read := reads_chars s.toList
  rw [← data_toUTF8] at read
  rw [decodeLossy_eq_of_reads read, String.ofList_toList]

end LuaDecl.Text.Utf8
