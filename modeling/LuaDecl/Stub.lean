import LuaDecl.Catalog

/-!
# Stub files

The text that declares a catalog to a language server: a header, a class for each table, and an
empty function for each signature, globals before dot functions before colon functions, each section
in the order of its keys.
-/

namespace LuaDecl.Stub

/-- The first line of a stub file. -/
def header : String := "---@meta\n"

/-- The declaration of a table, which makes it a class without fields. -/
def tableLines (name : String) : String :=
  "---@class " ++ name ++ "\n" ++ name ++ " = " ++ name ++ "\n"

/-- The declaration of a function. -/
def functionLine (key params : String) : String :=
  "function " ++ key ++ "(" ++ params ++ ") end\n"

/-- The parameters of a colon function. The colon stands for `self`, so a list that is blank would
say less than the ellipsis. -/
def colonParams (params : String) : String :=
  let trimmed := Text.trim params.toList
  if trimmed = [] || trimmed = Parameters.variadic then String.ofList Parameters.variadic
  else params

/-- The pieces of a stub file in order. -/
def sections (c : Catalog) : List String :=
  header :: c.tables.toList.map tableLines ++
    c.globals.entries.map (fun e => functionLine e.1 e.2) ++
    c.dotMethods.entries.map (fun e => functionLine e.1 e.2) ++
    c.colonMethods.entries.map (fun e => functionLine e.1 (colonParams e.2))

/-- The stub file of a catalog. -/
def render (c : Catalog) : String :=
  String.join (sections c)

end LuaDecl.Stub
