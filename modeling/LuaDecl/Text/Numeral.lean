import LuaDecl.Text.Pieces

/-!
# Numerals

The spellings of a number: digits with a point before, among or after them, perhaps an exponent and
signs, and the words for what lies beyond the numbers.
-/

namespace LuaDecl.Text

/-- The text is digits, one or more. -/
def isDigits (s : List Char) : Bool :=
  s ≠ [] && s.all Char.isDigit

/-- The text without the sign before it. -/
def unsigned : List Char → List Char
  | '+' :: rest | '-' :: rest => rest
  | s => s

/-- The text is digits with at most one point. -/
def isPointed (s : List Char) : Bool :=
  match pieces '.' s with
  | [whole] => isDigits whole
  | [whole, fraction] => isDigits (whole ++ fraction)
  | _ => false

/-- The text spells a number, infinity, or no number. Case does not matter. -/
def isNumeral (s : List Char) : Bool :=
  let size := (unsigned s).map Char.toLower
  ["inf", "infinity", "nan"].contains (String.ofList size) ||
    match cut? ['e'] size with
    | some (mantissa, exponent) => isPointed mantissa && isDigits (unsigned exponent)
    | none => isPointed size

end LuaDecl.Text
