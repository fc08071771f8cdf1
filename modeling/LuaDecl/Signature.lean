/-!
# Signatures

A signature is one function as a stub declares it: its kind, the table it belongs to, its name and
its parameters. Its key is the qualified name under which a catalog holds it.
-/

namespace LuaDecl

/-- How a function is reached: by its name alone, as a field of a table, or as a method of one. -/
inductive Kind where
  | global
  | dot
  | colon
  deriving DecidableEq, Repr

/-- One function definition. A global has no table; a dot or colon function found in a source has
one. -/
structure Signature where
  kind : Kind
  table : Option String
  name : String
  params : String
  deriving DecidableEq, Repr

namespace Signature

/-- The qualified name: `name`, `table.name` or `table:name`. -/
def key (s : Signature) : String :=
  match s.table, s.kind with
  | some table, .dot => table ++ "." ++ s.name
  | some table, .colon => table ++ ":" ++ s.name
  | _, _ => s.name

/-- The qualified name with the parameters after it. -/
def display (s : Signature) : String :=
  s.key ++ "(" ++ s.params ++ ")"

end Signature

end LuaDecl
