import LuaDecl.Text.JsonString

/-!
# Run summaries

What a run reports when the stub file is written: the file, how many sources were read and skipped,
and how many declarations the file holds. It is printed as a sentence or as a JSON object.
-/

namespace LuaDecl

/-- The counts of one run. -/
structure Summary where
  output : String
  filesScanned : Nat
  filesSkipped : Nat
  globals : Nat
  dotMethods : Nat
  colonMethods : Nat
  tables : Nat
  deriving DecidableEq, Repr

namespace Summary

/-- The summary as a sentence. -/
def line (s : Summary) : String :=
  "Wrote " ++ s.output ++ " with " ++ toString s.globals ++ " globals, " ++
    toString s.dotMethods ++ " dot-methods, " ++ toString s.colonMethods ++ " colon-methods."

/-- The members of the JSON object, in order, with their values written out. -/
def members (s : Summary) : List (String × String) :=
  [("output", Text.JsonString.quote s.output),
    ("files_scanned", toString s.filesScanned),
    ("files_skipped", toString s.filesSkipped),
    ("globals", toString s.globals),
    ("dot_methods", toString s.dotMethods),
    ("colon_methods", toString s.colonMethods),
    ("namespaces", toString s.tables)]

/-- The summary as a JSON object, one member a line, indented by two spaces. -/
def json (s : Summary) : String :=
  let memberLine (m : String × String) := "  " ++ Text.JsonString.quote m.1 ++ ": " ++ m.2
  "\x7b\n" ++ String.intercalate ",\n" (s.members.map memberLine) ++ "\n\x7d"

end Summary

end LuaDecl
