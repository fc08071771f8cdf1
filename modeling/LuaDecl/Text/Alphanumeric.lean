import LuaDecl.Text.AlphanumericRanges

/-!
# Letters and numbers

Letters and numbers of any script. Unlike the characters of a word they hold no connectors, no
joiners and only those marks that count as letters, but also fractions and numbers in circles.
-/

namespace LuaDecl.Text

/-- The character is a letter or a number. ASCII is decided without the table. -/
def isAlphanumeric (c : Char) : Bool :=
  if c.toNat < 128 then c.isAlphanum
  else alphanumericRanges.any fun r => r.1 ≤ c.toNat && c.toNat ≤ r.2

end LuaDecl.Text
