import LuaDecl.Text.Blank
import LuaDecl.Text.WordRanges

/-!
# Word characters

A word holds letters, marks, decimal digits, connector punctuation and joiners of any script. An
identifier is a word whose first character is an ASCII letter or the underscore. Main statement: no
character is both blank and part of a word, so where a word ends never depends on what follows it.
-/

namespace LuaDecl.Text

/-- The character may stand in a word. ASCII is decided without the table. -/
def isWord (c : Char) : Bool :=
  if c.toNat < 128 then c.isAlphanum || c == '_'
  else wordRanges.any fun r => r.1 ≤ c.toNat && c.toNat ≤ r.2

/-- The character may begin an identifier. -/
def isIdentifierStart (c : Char) : Bool :=
  c.isAlpha || c == '_'

/-- The code points of the blanks. -/
private def blankPoints : List Nat :=
  [9, 10, 11, 12, 13, 32, 0x85, 0xa0, 0x1680, 0x2000, 0x2001, 0x2002, 0x2003, 0x2004, 0x2005,
    0x2006, 0x2007, 0x2008, 0x2009, 0x200a, 0x2028, 0x2029, 0x202f, 0x205f, 0x3000]

private theorem toNat_mem_blankPoints {c : Char} (h : isBlank c = true) :
    c.toNat ∈ blankPoints := by
  have toNat_eq {a b : Char} (e : a = b) : a.toNat = b.toNat := congrArg Char.toNat e
  simp only [isBlank, Bool.or_eq_true, Bool.and_eq_true, decide_eq_true_eq, beq_iff_eq,
    Char.le_def, UInt32.le_iff_toNat_le] at h
  change ((((((((((9 ≤ c.toNat ∧ c.toNat ≤ 13) ∨ c = ' ') ∨ c = '\u0085') ∨ c = '\u00a0') ∨
    c = '\u1680') ∨ (0x2000 ≤ c.toNat ∧ c.toNat ≤ 0x200a)) ∨ c = '\u2028') ∨ c = '\u2029') ∨
    c = '\u202f') ∨ c = '\u205f') ∨ c = '\u3000' at h
  rcases h with (((((((((h | rfl) | rfl) | rfl) | rfl) | h) | rfl) | rfl) | rfl) | rfl) | rfl
  case inl.inl.inl.inl.inl.inl.inl.inl.inl.inl =>
    simp only [blankPoints, List.mem_cons]; omega
  case inl.inl.inl.inl.inl.inr =>
    simp only [blankPoints, List.mem_cons]; omega
  all_goals decide

theorem isWord_eq_false_of_isBlank {c : Char} (h : isBlank c = true) : isWord c = false := by
  have table : ∀ n ∈ blankPoints, isWord (Char.ofNat n) = false := by decide +kernel
  simpa [Char.ofNat_toNat] using table c.toNat (toNat_mem_blankPoints h)

private theorem toNat_lt_of_isUpper {c : Char} (h : c.isUpper = true) : c.toNat < 128 := by
  have bounds : 'A'.val ≤ c.val ∧ c.val ≤ 'Z'.val := of_decide_eq_true h
  exact Nat.lt_of_le_of_lt (UInt32.le_iff_toNat_le.mp bounds.2) (by decide)

private theorem toNat_lt_of_isLower {c : Char} (h : c.isLower = true) : c.toNat < 128 := by
  have last : c.val ≤ 'z'.val := of_decide_eq_true ((Bool.and_eq_true _ _).mp h).2
  exact Nat.lt_of_le_of_lt (UInt32.le_iff_toNat_le.mp last) (by decide)

theorem isWord_of_isIdentifierStart {c : Char} (h : isIdentifierStart c = true) :
    isWord c = true := by
  have small : c.toNat < 128 := by
    rcases (Bool.or_eq_true _ _).mp h with letter | underscore
    · rcases (Bool.or_eq_true _ _).mp letter with upper | lower
      · exact toNat_lt_of_isUpper upper
      · exact toNat_lt_of_isLower lower
    · rw [eq_of_beq underscore]
      decide
  have alphanum : (c.isAlphanum || c == '_') = true := by
    simp only [isIdentifierStart, Bool.or_eq_true] at h
    simp only [Char.isAlphanum, Bool.or_eq_true]
    exact h.imp_left Or.inl
  simpa [isWord, small] using alphanum

end LuaDecl.Text
