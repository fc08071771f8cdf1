import LuaDecl.ScanConfig
import LuaDecl.Text.EditDistance

/-!
# Suggestions for misspelled keys

A key that means nothing is compared with the keys that do. The nearest of them is suggested if few
edits lead to it.
-/

namespace LuaDecl.ScanConfig

/-- The largest edit distance at which a key is suggested. -/
def suggestionLimit : Nat := 3

/-- The distance of a key to a known one. -/
def keyDistance (key known : String) : Nat :=
  Text.EditDistance.distance key.toList known.toList

/-- The element with the least measure, the first of several. -/
def nearest? (measure : String → Nat) : List String → Option String
  | [] => none
  | first :: rest =>
    match nearest? measure rest with
    | none => some first
    | some best => if measure best < measure first then some best else some first

/-- The known key nearest to a key, if it is near enough. -/
def suggestion? (key : String) : Option String :=
  nearest? (keyDistance key) (knownKeys.filter fun known => keyDistance key known ≤ suggestionLimit)

end LuaDecl.ScanConfig
