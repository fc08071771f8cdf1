import LuaDecl.Signature
import LuaDecl.Text.Pieces
import LuaDecl.Text.Word

/-!
# Shapes of definitions

A function definition is written in one of five shapes: as a statement (`function name(…)`,
`function table.name(…)`, `function table:name(…)`) or as an assignment (`name = function(…)`,
`table.name = function(…)`). Reading a shape is deterministic, since no character is both blank and
part of a word: each step takes all the blanks or word characters there are.
-/

namespace LuaDecl.Definition

open Text

/-- The five ways to write a definition. -/
inductive Shape where
  | colonStatement
  | dotStatement
  | globalStatement
  | dotAssignment
  | globalAssignment
  deriving DecidableEq, Repr

/-- What a shape captures: the table before the dot or colon, the name, and the text between the
parentheses. -/
structure Capture where
  table : Option (List Char)
  name : List Char
  params : List Char
  deriving DecidableEq, Repr

namespace Shape

/-- The kind of function that the shape defines. -/
def kind : Shape → Kind
  | colonStatement => .colon
  | dotStatement | dotAssignment => .dot
  | globalStatement | globalAssignment => .global

/-- The shapes in the order in which an extraction lists their signatures. -/
def all : List Shape :=
  [colonStatement, dotStatement, globalStatement, dotAssignment, globalAssignment]

end Shape

/-- The rest after one or more blanks. -/
def blanks? : List Char → Option (List Char)
  | c :: rest => if isBlank c then some (trimStart rest) else none
  | [] => none

/-- An identifier and the rest. -/
def identifier? : List Char → Option (List Char × List Char)
  | c :: rest =>
    if isIdentifierStart c then some (c :: rest.takeWhile isWord, rest.dropWhile isWord) else none
  | [] => none

/-- A word and the rest. -/
def word? : List Char → Option (List Char × List Char)
  | c :: rest =>
    if isWord c then some (c :: rest.takeWhile isWord, rest.dropWhile isWord) else none
  | [] => none

/-- The text between an opening parenthesis and the next closing one, and the rest. -/
def parenthesized? : List Char → Option (List Char × List Char)
  | '(' :: rest =>
    match rest.dropWhile (· ≠ ')') with
    | ')' :: after => some (rest.takeWhile (· ≠ ')'), after)
    | _ => none
  | _ => none

/-- The table and name of a function of the given kind, and the rest. -/
def subject? (kind : Kind) (s : List Char) :
    Option ((Option (List Char) × List Char) × List Char) := do
  let (first, s) ← identifier? s
  match kind with
  | .global => return ((none, first), s)
  | .dot =>
    let s ← after? ['.'] s
    let (name, s) ← word? s
    return ((some first, name), s)
  | .colon =>
    let s ← after? [':'] s
    let (name, s) ← word? s
    return ((some first, name), s)

/-- The keyword that every definition holds. -/
def keyword : List Char :=
  ['f', 'u', 'n', 'c', 't', 'i', 'o', 'n']

/-- A definition statement of the given kind and the rest: keyword, blanks, subject, parameters. -/
def statement? (kind : Kind) (s : List Char) : Option (Capture × List Char) := do
  let s ← after? keyword (trimStart s)
  let s ← blanks? s
  let ((table, name), s) ← subject? kind s
  let (params, s) ← parenthesized? (trimStart s)
  return (⟨table, name, params⟩, s)

/-- A definition by assignment and the rest: subject, equal sign, keyword, parameters. -/
def assignment? (kind : Kind) (s : List Char) : Option (Capture × List Char) := do
  let ((table, name), s) ← subject? kind (trimStart s)
  let s ← after? ['='] (trimStart s)
  let s ← after? keyword (trimStart s)
  let (params, s) ← parenthesized? (trimStart s)
  return (⟨table, name, params⟩, s)

namespace Shape

/-- What the shape captures when it begins the text, and the rest after its closing parenthesis. -/
def scan? (shape : Shape) (s : List Char) : Option (Capture × List Char) :=
  match shape with
  | colonStatement => statement? .colon s
  | dotStatement => statement? .dot s
  | globalStatement => statement? .global s
  | dotAssignment => assignment? .dot s
  | globalAssignment => assignment? .global s

end Shape

end LuaDecl.Definition
