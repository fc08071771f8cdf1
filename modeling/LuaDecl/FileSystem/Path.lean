import LuaDecl.Text.Pieces

/-!
# Paths

A path is a text; slashes separate its names. The functions here work on the text alone: where a
path leads is a matter of a file system. Empty names and single dots count for nothing, except that
a dot at the start stays in front of what is left when names are taken off the end.
-/

namespace LuaDecl.FileSystem.Path

open Text

/-- The path starts at the root. -/
def isAbsolute (path : String) : Bool :=
  path.toList.head? = some '/'

/-- The path ends in a slash, which only a directory's may. -/
def endsInSlash (path : String) : Bool :=
  path.toList.getLast? = some '/'

/-- The names between the slashes, without the empty ones. -/
def names (path : String) : List String :=
  ((pieces '/' path.toList).filter (· ≠ [])).map String.ofList

/-- The names to follow from the start of the path. A slash at the end counts as an empty name. -/
def steps (path : String) : List String :=
  names path ++ if endsInSlash path then [""] else []

/-- What is left of a path when only its meaning as a text counts: the root if the path starts
there, and the names but for single dots, of which only one at the start of the path stays. -/
def components (path : String) : List String :=
  let start :=
    if isAbsolute path then ["/"]
    else if (names path).head? = some "." then ["."]
    else []
  start ++ (names path).filter (· ≠ ".")

/-- The name of the file that the path spells: its last name that is no single dot. -/
def fileName? (path : String) : Option String :=
  match ((names path).filter (· ≠ ".")).getLast? with
  | some ".." => none
  | last => last

/-- The extension: what follows the last dot of the file name, unless nothing stands before it. -/
def extension? (path : String) : Option String := do
  let name ← fileName? path
  match (pieces '.' name.toList).reverse with
  | last :: first :: more =>
    if first = [] ∧ more = [] then none else some (String.ofList last)
  | _ => none

/-- A path below a directory: the directory's path, a slash unless there is one, and the name. -/
def join (directory name : String) : String :=
  if directory.isEmpty || endsInSlash directory then directory ++ name
  else directory ++ "/" ++ name

/-- The start of a path that stays when names are taken off its end, and the other characters. -/
def splitHead (path : List Char) : List Char × List Char :=
  match path with
  | '/' :: rest => (['/'], rest)
  | ['.'] => (['.'], [])
  | '.' :: '/' :: rest => (['.'], '/' :: rest)
  | rest => ([], rest)

/-- The pieces without the empty ones and the dots at their end. -/
def dropBlankEnd (parts : List (List Char)) : List (List Char) :=
  (parts.reverse.dropWhile fun part => part = [] || part = ['.']).reverse

/-- The path without its last name. The root has no parent, and neither has the empty path; the
parent of a single name is the empty path. -/
def parent? (path : String) : Option String :=
  let (head, body) := splitHead path.toList
  match dropBlankEnd (pieces '/' body) with
  | [] => if head = ['.'] then some "" else none
  | parts => some (String.ofList (head ++ joinPieces '/' (dropBlankEnd parts.dropLast)))

/-- The parents of a path, nearest first, up to but not including the empty path. Each is shorter
than the one before, so the length of the path bounds their number. -/
def ancestors (path : String) : List String :=
  go path.length path
where
  /-- At most as many parents as the fuel. -/
  go : (fuel : Nat) → String → List String
    | 0, _ => []
    | fuel + 1, path =>
      match parent? path with
      | none => []
      | some parent => if parent.isEmpty then [] else parent :: go fuel parent

end LuaDecl.FileSystem.Path
