import LuaDecl.Toml.Moment
import LuaDecl.Toml.Number
import LuaDecl.Toml.QuotedText
import LuaDecl.Toml.Table

/-!
# Keys and values of TOML documents

Dotted keys, and the values that stand after them: texts, numbers, moments, truth values, arrays and
tables in braces. A dotted key has fewer than eighty parts, and arrays and braces nest fewer than
eighty deep.
-/

namespace LuaDecl.Toml

/-- How deep arrays and braces may nest, and how many parts a dotted key may have. -/
def depthLimit : Nat := 79

/-- A character of a key without quotes. -/
def isBareKeyChar (c : Char) : Bool :=
  c.isAlphanum || c = '-' || c = '_'

/-- One part of a key and the rest: quoted on one line, or bare. -/
def keyPart? : List Char → Option (List Char × List Char)
  | '"' :: rest => basicBody? rest
  | '\'' :: rest => literalBody? rest
  | s =>
    match s.takeWhile isBareKeyChar with
    | [] => none
    | part => some (part, s.dropWhile isBareKeyChar)

/-- The parts of a dotted key, at most as many as the fuel, and the rest. Spaces may stand around
each part. -/
def keyParts? : (fuel : Nat) → List Char → Option (List String × List Char)
  | 0, _ => none
  | fuel + 1, s => do
    let (part, s) ← keyPart? (skipSpaces s)
    match skipSpaces s with
    | '.' :: s => do
      let (parts, rest) ← keyParts? fuel s
      return (String.ofList part :: parts, rest)
    | rest => return ([String.ofList part], rest)

/-- A dotted key, as the path and its last part, and the rest. -/
def key? (s : List Char) : Option ((List String × String) × List Char) := do
  let (parts, rest) ← keyParts? depthLimit s
  let last ← parts.getLast?
  return ((parts.dropLast, last), rest)

/-- A dotted key with the value after the equal sign. -/
structure Assignment where
  path : List String
  key : String
  value : Value

/-- The members with the assignments added in order. -/
def Members.assignAll (members : Members) (assignments : List Assignment) : Option Members :=
  assignments.foldlM (fun m a => m.assign a.path a.key a.value) members

/-- A number or moment and the rest. A moment is tried first and an integer last, since each may
begin like the next. -/
def scalar? (s : List Char) : Option (Value × List Char) :=
  let spelling (rest : List Char) := String.ofList (s.take (s.length - rest.length))
  match afterMoment? s with
  | some rest => some (.moment (spelling rest), rest)
  | none =>
    match afterFloat? s with
    | some rest => some (.float (spelling rest), rest)
    | none => (integer? s).map fun (n, rest) => (.integer n, rest)

/-- The items of an array after its opening bracket, and the rest after the closing one. A comma may
stand after the last item. -/
def arrayItems? (item : List Char → Option (Value × List Char)) :
    (fuel : Nat) → List Char → Option (List Value × List Char)
  | 0, _ => none
  | fuel + 1, s =>
    match skipLayout s with
    | ']' :: rest => some ([], rest)
    | s => do
      let (v, s) ← item s
      match skipLayout s with
      | ',' :: s => do
        let (items, rest) ← arrayItems? item fuel s
        return (v :: items, rest)
      | ']' :: rest => return ([v], rest)
      | _ => none

/-- A key, the equal sign, a value and the rest. -/
def assignment? (value : List Char → Option (Value × List Char)) (s : List Char) :
    Option (Assignment × List Char) := do
  let ((path, key), s) ← key? s
  match s with
  | '=' :: s => do
    let (v, rest) ← value (skipSpaces s)
    return (⟨path, key, v⟩, rest)
  | _ => none

/-- The assignments of a table in braces, one or more, and the rest after the closing brace. No
comma may stand after the last one. -/
def braceAssignments? (value : List Char → Option (Value × List Char)) :
    (fuel : Nat) → List Char → Option (List Assignment × List Char)
  | 0, _ => none
  | fuel + 1, s => do
    let (first, s) ← assignment? value s
    match skipSpaces s with
    | ',' :: s => do
      let (more, rest) ← braceAssignments? value fuel s
      return (first :: more, rest)
    | '\x7d' :: rest => return ([first], rest)
    | _ => none

/-- A value and the rest. Arrays and braces may nest as deep as given. -/
def value? : (depth : Nat) → List Char → Option (Value × List Char)
  | 0, '[' :: _ | 0, '\x7b' :: _ => none
  | depth + 1, '[' :: s => do
    let (items, rest) ← arrayItems? (value? depth) (s.length + 1) s
    return (.array items, rest)
  | depth + 1, '\x7b' :: s =>
    match skipSpaces s with
    | '\x7d' :: rest => some (.table [], rest)
    | _ => do
      let (assignments, rest) ← braceAssignments? (value? depth) (s.length + 1) s
      let members ← Members.assignAll [] assignments
      return (.table (membersToValues members), rest)
  | _, 't' :: 'r' :: 'u' :: 'e' :: rest => some (.boolean true, rest)
  | _, 'f' :: 'a' :: 'l' :: 's' :: 'e' :: rest => some (.boolean false, rest)
  | _, s =>
    match quotedText? s with
    | some (t, rest) => some (.text (String.ofList t), rest)
    | none => scalar? s

end LuaDecl.Toml
