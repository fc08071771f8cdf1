/-!
# TOML values

The values of a TOML document. Floats and moments in time keep their spelling: nothing here counts
with them.
-/

namespace LuaDecl.Toml

/-- A value of a TOML document. -/
inductive Value where
  | text (text : String)
  | integer (integer : Int)
  | float (spelling : String)
  | boolean (boolean : Bool)
  /-- A date, a time of day, or both. -/
  | moment (spelling : String)
  | array (items : List Value)
  | table (members : List (String × Value))

namespace Value

/-- The text of a text value. -/
def text? : Value → Option String
  | text t => some t
  | _ => none

/-- The items of an array. -/
def items? : Value → Option (List Value)
  | array items => some items
  | _ => none

end Value

end LuaDecl.Toml
