import LuaDecl.Text.Blank

/-!
# Parameter lists

The parameters of a definition are kept as written, without the blanks around them. A list that says
nothing about the arguments (empty, a lone `self` or `_`, or already the ellipsis) becomes the
ellipsis. Main statement: normalising twice is normalising once.
-/

namespace LuaDecl.Parameters

open Text

/-- The list that admits any arguments. -/
def variadic : List Char :=
  ['.', '.', '.']

/-- A trimmed list that says nothing about the arguments. The case of `self` does not matter. -/
def isUninformative (params : List Char) : Bool :=
  params = [] || params = variadic || params.map Char.toLower = ['s', 'e', 'l', 'f'] ||
    params = ['_']

/-- The parameters a stub declares for the given text between the parentheses. -/
def normalizeChars (raw : List Char) : List Char :=
  if isUninformative (trim raw) then variadic else trim raw

/-- The normal form of a parameter list. -/
def normalize (raw : String) : String :=
  String.ofList (normalizeChars raw.toList)

theorem normalizeChars_normalizeChars (raw : List Char) :
    normalizeChars (normalizeChars raw) = normalizeChars raw := by
  unfold normalizeChars
  cases h : isUninformative (trim raw) with
  | true =>
    have : isUninformative (trim variadic) = true := by decide
    simp [this]
  | false => simp [trim_trim, h]

end LuaDecl.Parameters
