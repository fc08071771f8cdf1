import LuaDecl.Toml.Moment
import LuaDecl.Toml.Value

/-!
# Moments spelled as tables

A table below a document may stand for a moment: its first key is then reserved for that, and the
value of the key is the text of the moment. What else the table holds does not matter. A table that
begins with the reserved key and spells no moment spoils the document.
-/

namespace LuaDecl.Toml

/-- The key that begins a table which stands for a moment. -/
def momentKey : String := "$__toml_private_datetime"

/-- The moment that a value is the text of. -/
def Value.spelledMoment? : Value → Option Value
  | .text t => if isMomentText t.toList then some (.moment t) else none
  | _ => none

mutual

/-- The value with moments for the tables that stand for them, or nothing when such a table spells
no moment. -/
def Value.withMoments? : Value → Option Value
  | .array items => (itemsWithMoments? items).map .array
  | .table [] => some (.table [])
  | .table ((key, value) :: rest) =>
    if key = momentKey then value.spelledMoment?
    else do
      let value ← value.withMoments?
      let rest ← membersWithMoments? rest
      return .table ((key, value) :: rest)
  | value => some value

/-- The items of an array with moments for the tables that stand for them. -/
def itemsWithMoments? : List Value → Option (List Value)
  | [] => some []
  | item :: rest => do
    let item ← item.withMoments?
    let rest ← itemsWithMoments? rest
    return item :: rest

/-- The members of a table with moments for the tables that stand for them. -/
def membersWithMoments? : List (String × Value) → Option (List (String × Value))
  | [] => some []
  | (key, value) :: rest => do
    let value ← value.withMoments?
    let rest ← membersWithMoments? rest
    return (key, value) :: rest

end

end LuaDecl.Toml
