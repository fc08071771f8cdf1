/-!
# Line comments

A line comment begins with two dashes and ends before the next line feed, or with the text.
-/

namespace LuaDecl.Comment

/-- The text without its line comments. The line feeds that end them stay. -/
def removeLine : List Char → List Char
  | [] => []
  | '-' :: '-' :: rest => removeLine (rest.dropWhile (· ≠ '\n'))
  | c :: rest => c :: removeLine rest
termination_by s => s.length
decreasing_by
  · have := (List.dropWhile_suffix (l := rest) (· ≠ '\n')).length_le
    simp only [List.length_cons]
    omega
  · simp

end LuaDecl.Comment
