import LuaDecl.SortedMap
import LuaDecl.Toml.Expression
import LuaDecl.Toml.MomentTable

/-!
# TOML documents

A document is a sequence of lines: blank lines and comments, assignments, and headers in brackets.
The assignments before the first header belong to the document itself, the others to the table of
the header above them.
-/

namespace LuaDecl.Toml

/-- A line of a document that means something. -/
inductive Line where
  | assignment (assignment : Assignment)
  /-- The header of a table. -/
  | header (path : List String) (key : String)
  /-- The header of a further element of an array of tables. -/
  | elementHeader (path : List String) (key : String)

/-- A header between its brackets, the end of its line, and the rest. -/
def header? (close s : List Char) : Option ((List String × String) × List Char) := do
  let (key, s) ← key? s
  match close, s with
  | [']', ']'], ']' :: ']' :: s => return (key, ← lineEnd? s)
  | [']'], ']' :: s => return (key, ← lineEnd? s)
  | _, _ => none

/-- The first line that means something and the rest, from the start of a line. -/
def line? (s : List Char) : Option (Line × List Char) :=
  match s with
  | '[' :: '[' :: s => (header? [']', ']'] s).map fun (h, rest) => (.elementHeader h.1 h.2, rest)
  | '[' :: s => (header? [']'] s).map fun (h, rest) => (.header h.1 h.2, rest)
  | s => do
    let (a, s) ← assignment? (value? depthLimit) s
    return (.assignment a, ← lineEnd? s)

/-- The lines of a document that mean something. Each line takes at least one character. -/
def lines? : (fuel : Nat) → List Char → Option (List Line)
  | 0, _ => none
  | fuel + 1, s =>
    match skipSpaces s with
    | [] => some []
    | '\n' :: rest | '\r' :: '\n' :: rest => lines? fuel rest
    | '#' :: comment => (lineEnd? ('#' :: comment)).bind (lines? fuel)
    | s => do
      let (line, rest) ← line? s
      let more ← lines? fuel rest
      return line :: more

/-- The assignments up to the first header. -/
def leadingAssignments : List Line → List Assignment
  | .assignment a :: rest => a :: leadingAssignments rest
  | _ => []

/-- The members with what the headers of a document define, each with the assignments below it. -/
def Members.defineAll (members : Members) : List Line → Option Members
  | [] => some members
  | .assignment _ :: rest => members.defineAll rest
  | .header path key :: rest => do
    let members ← members.define path key fun start => start.assignAll (leadingAssignments rest)
    members.defineAll rest
  | .elementHeader path key :: rest => do
    let members ←
      members.defineElement path key fun start => start.assignAll (leadingAssignments rest)
    members.defineAll rest

/-- The values at the top of a document, by key, or nothing when the text is no TOML document. A
byte order mark may come first. -/
def document? (text : String) : Option (SortedMap Value) := do
  let s := match text.toList with
    | '\ufeff' :: rest => rest
    | s => s
  let lines ← lines? (s.length + 1) s
  let top ← Members.assignAll [] (leadingAssignments lines)
  let members ← top.defineAll lines
  return SortedMap.ofList (← membersWithMoments? (membersToValues members))

end LuaDecl.Toml
