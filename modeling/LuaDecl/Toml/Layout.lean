/-!
# Layout of TOML documents

What stands between the meaningful parts of a document: spaces and tabs, line ends (a line feed,
perhaps after a carriage return) and comments, which run from a number sign to the end of the line.
-/

namespace LuaDecl.Toml

/-- A space or a tab. -/
def isSpace (c : Char) : Bool :=
  c = ' ' || c = '\t'

/-- A character that a comment may hold: no control character but the tab. -/
def isCommentChar (c : Char) : Bool :=
  c = '\t' || (' ' ≤ c && c ≠ '\x7f')

/-- The rest after spaces and tabs. -/
def skipSpaces (s : List Char) : List Char :=
  s.dropWhile isSpace

/-- The rest after one line end. -/
def lineBreak? : List Char → Option (List Char)
  | '\n' :: rest => some rest
  | '\r' :: '\n' :: rest => some rest
  | _ => none

/-- The rest after spaces, a comment if there is one, and the end of the line or of the text. -/
def lineEnd? (s : List Char) : Option (List Char) :=
  match skipSpaces s with
  | [] => some []
  | '#' :: comment =>
    match comment.dropWhile isCommentChar with
    | [] => some []
    | rest => lineBreak? rest
  | rest => lineBreak? rest

/-- A line end is at least one character. -/
private theorem length_lt_of_lineBreak? {s rest : List Char} (h : lineBreak? s = some rest) :
    rest.length < s.length := by
  unfold lineBreak? at h
  split at h
  · cases h; simp
  · cases h; simp only [List.length_cons]; omega
  · simp at h

/-- The rest after spaces, line ends and comments. A comment counts only with the end of its line.
-/
def skipLayout (s : List Char) : List Char :=
  match s with
  | [] => []
  | c :: rest =>
    if isSpace c then skipLayout rest
    else
      let next := if c = '#' then lineBreak? (rest.dropWhile isCommentChar)
        else lineBreak? (c :: rest)
      match _h : next with
      | some after => skipLayout after
      | none => c :: rest
termination_by s.length
decreasing_by
  · simp
  · have drop := (List.dropWhile_suffix (l := rest) isCommentChar).length_le
    simp only [next] at _h
    split at _h
    · have := length_lt_of_lineBreak? _h
      simp only [List.length_cons]
      omega
    · exact length_lt_of_lineBreak? _h

end LuaDecl.Toml
