import LuaDecl.Comment.Line
import LuaDecl.Comment.Long

/-!
# Comment removal

Long comments go first, line comments second. Neither pass knows string literals, so two dashes
inside a string hide the rest of that line.
-/

namespace LuaDecl.Comment

/-- The characters of a text that no comment holds. -/
def stripChars (s : List Char) : List Char :=
  removeLine (removeLong s)

/-- The text without comments. -/
def strip (text : String) : String :=
  String.ofList (stripChars text.toList)

end LuaDecl.Comment
