import LuaDecl.Text.Alphanumeric
import LuaDecl.Text.Blank
import LuaDecl.Text.Hexadecimal

/-!
# Patterns

The form of regular expressions: alternatives that are sequences of items, where an item is a
character, a class in brackets, an escape or a group, and may be repeated. Only the form is decided
here and not what a pattern matches. Counts in braces have no place in the patterns of this module,
and neither have references to groups and conditions on what stands around. A pattern matches
texts, so where its characters are bytes it may name no byte that is half a character.
-/

namespace LuaDecl.Text.Pattern

/-- How a part of a pattern is read. -/
structure Mode where
  /-- Blanks and comments do not count. -/
  spaced : Bool
  /-- Sets hold ASCII characters only. -/
  ascii : Bool
  deriving DecidableEq, Repr

/-- The rest after blanks and comments. A comment runs from a number sign to the end of the line. -/
def skipComments : (inComment : Bool) → List Char → List Char
  | _, [] => []
  | true, c :: rest => skipComments (c ≠ '\n') rest
  | false, c :: rest =>
    if isBlank c then skipComments false rest
    else if c = '#' then skipComments true rest
    else c :: rest

namespace Mode

/-- The mode in which a pattern begins. -/
def default : Mode :=
  ⟨false, false⟩

/-- The rest after what does not count. -/
def skip (mode : Mode) (s : List Char) : List Char :=
  if mode.spaced then skipComments false s else s

/-- A flag is set, or cleared after a minus, or not there. -/
def flag? (letter : Char) (flags : List Char) : Option Bool :=
  if flags.contains letter then some ((flags.takeWhile (· ≠ '-')).contains letter) else none

/-- The mode after flags. -/
def withFlags (mode : Mode) (flags : List Char) : Mode :=
  ⟨(flag? 'x' flags).getD mode.spaced, ((flag? 'u' flags).map not).getD mode.ascii⟩

end Mode

/-- What a backslash and the characters after it stand for. -/
inductive Escape where
  | character (c : Char)
  /-- A set of characters. -/
  | set
  /-- A place between characters. -/
  | place
  deriving DecidableEq, Repr

/-- The character is ASCII. -/
def isAscii (c : Char) : Bool :=
  c.toNat < 128

/-- The letter names a general category of characters. -/
def isCategory (c : Char) : Bool :=
  "clmnpsz".toList.contains c.toLower

/-- What a single character after a backslash stands for. Boundaries of words are places in ASCII
only, and all but a set is no set of ASCII characters. -/
def letterEscape? (mode : Mode) (c : Char) : Option Escape :=
  match c with
  | 'a' => some (.character '\x07')
  | 't' => some (.character '\t')
  | 'n' => some (.character '\n')
  | 'v' => some (.character '\x0b')
  | 'f' => some (.character '\x0c')
  | 'r' => some (.character '\r')
  | 'A' | 'z' => some .place
  | 'b' | 'B' | '<' | '>' => if mode.ascii then some .place else none
  | 'd' | 's' | 'w' => some .set
  | 'D' | 'S' | 'W' => if mode.ascii then none else some .set
  | c => if isAscii c && !c.isAlphanum then some (.character c) else none

/-- What begins after a backslash, and the rest. -/
def escape? (mode : Mode) : List Char → Option (Escape × List Char)
  | 'x' :: a :: b :: rest => do
    let c ← codePoint? [a, b]
    if mode.ascii && !isAscii c then none else some (.character c, rest)
  | 'u' :: a :: b :: c :: d :: rest => (codePoint? [a, b, c, d]).map fun c => (.character c, rest)
  | 'U' :: a :: b :: c :: d :: e :: f :: g :: h :: rest =>
    (codePoint? [a, b, c, d, e, f, g, h]).map fun c => (.character c, rest)
  | 'p' :: category :: rest | 'P' :: category :: rest =>
    if isCategory category && !mode.ascii then some (.set, rest) else none
  | c :: rest => (letterEscape? mode c).map fun e => (e, rest)
  | [] => none

/-- The body of a class after what has a meaning of its own at its start: the mark of negation, and
hyphens or else one closing bracket, which stand for themselves there. -/
def classBody? (mode : Mode) (s : List Char) : Option (List Char) :=
  match mode.skip s with
  | '^' :: rest => if mode.ascii then none else some (afterLeading (mode.skip rest))
  | s => some (afterLeading s)
where
  /-- The rest after hyphens or else one closing bracket. -/
  afterLeading : List Char → List Char
    | '-' :: rest => rest.dropWhile fun c => c = '-' || (mode.spaced && isBlank c)
    | ']' :: rest => rest
    | s => s

/-- The character that begins a part of a class, unless the part is a set, and the rest. -/
def classPart? (mode : Mode) : List Char → Option (Option Char × List Char)
  | '\\' :: s =>
    match escape? mode s with
    | some (.character c, rest) => if mode.ascii && !isAscii c then none else some (some c, rest)
    | some (.set, rest) => some (none, rest)
    | _ => none
  | c :: rest => if mode.ascii && !isAscii c then none else some (some c, rest)
  | [] => none

/-- Two parts of a class are the ends of a range. -/
def isRange : Option Char → Option Char → Bool
  | some first, some last => first ≤ last
  | _, _ => false

/-- The rest after a class whose body goes on here. The class lies in as many classes as `depth`
says. Each step takes at least one character. -/
def afterClass? (mode : Mode) : (fuel : Nat) → (depth : Nat) → List Char → Option (List Char)
  | 0, _, _ => none
  | fuel + 1, depth, s =>
    match mode.skip s with
    | '[' :: rest => (classBody? mode rest).bind (afterClass? mode fuel (depth + 1))
    | ']' :: rest => if depth = 0 then some rest else afterClass? mode fuel (depth - 1) rest
    | '&' :: '&' :: rest | '-' :: '-' :: rest | '~' :: '~' :: rest =>
      afterClass? mode fuel depth rest
    | s => do
      let (first, rest) ← classPart? mode s
      match mode.skip rest with
      | '-' :: rest =>
        match mode.skip rest with
        | ']' :: _ | '-' :: _ => afterClass? mode fuel depth ('-' :: rest)
        | rest =>
          let (last, rest) ← classPart? mode rest
          if isRange first last then afterClass? mode fuel depth rest else none
      | rest => afterClass? mode fuel depth rest

/-- The text is the flags of a group: each known and there once. A minus among them may not be the
last. -/
def areFlags (flags : List Char) : Bool :=
  flags.all ("imsuURx-".toList.contains ·) && flags.Nodup && flags.getLast? ≠ some '-'

/-- The text is the name of a group. -/
def isGroupName : List Char → Bool
  | [] => false
  | first :: rest =>
    (first = '_' || (isAlphanumeric first && !first.isDigit)) &&
      rest.all fun c => isAlphanumeric c || "_.[]".toList.contains c

/-- What is known of the part of a pattern that has been read. -/
structure Progress where
  /-- The modes around the groups that are open, innermost first. -/
  outer : List Mode
  mode : Mode
  /-- The names of the groups. -/
  names : List (List Char)
  /-- The part ends in an item, which may be repeated. -/
  item : Bool
  deriving DecidableEq, Repr

namespace Progress

/-- Before a pattern. -/
def start : Progress :=
  ⟨[], .default, [], false⟩

/-- After an item. -/
def withItem (p : Progress) : Progress :=
  { p with item := true }

/-- After something that cannot be repeated. -/
def withoutItem (p : Progress) : Progress :=
  { p with item := false }

/-- After flags for the rest of the group around them, which are nothing to repeat. -/
def flagged (p : Progress) (flags : List Char) : Progress :=
  { p with mode := p.mode.withFlags flags, item := false }

/-- After the opening of a group with flags. -/
def opened (p : Progress) (flags : List Char) : Progress :=
  { p with outer := p.mode :: p.outer, mode := p.mode.withFlags flags, item := false }

/-- After the opening of a group that has a name, which no other group may have. -/
def openedAs? (p : Progress) (name : List Char) : Option Progress :=
  if isGroupName name ∧ name ∉ p.names then some { p.opened [] with names := name :: p.names }
  else none

/-- After the end of a group. -/
def closed? (p : Progress) : Option Progress :=
  match p.outer with
  | [] => none
  | mode :: outer => some { p with outer := outer, mode := mode, item := true }

end Progress

/-- The progress after the opening of a group with a name, and the rest. -/
def namedGroup? (p : Progress) (s : List Char) : Option (Progress × List Char) :=
  match s.dropWhile (· ≠ '>') with
  | _ :: rest => (p.openedAs? (s.takeWhile (· ≠ '>'))).map (·, rest)
  | [] => none

/-- The progress after what a parenthesis begins: a group, perhaps with a name or flags, or flags
for the rest of the group around it; and the rest. -/
def group? (p : Progress) (s : List Char) : Option (Progress × List Char) :=
  match p.mode.skip s with
  | '?' :: 'P' :: '<' :: s | '?' :: '<' :: s => namedGroup? p s
  | '?' :: s =>
    let isFlag (c : Char) : Bool := c ≠ ':' && c ≠ ')'
    let flags := s.takeWhile isFlag
    if areFlags flags then
      match s.dropWhile isFlag with
      | ':' :: rest => some (p.opened flags, rest)
      | ')' :: rest =>
        if flags = [] then none else some (p.flagged flags, rest)
      | _ => none
    else none
  | s => some (p.opened [], s)

/-- The progress after the next step through a pattern, and the rest. -/
def step? (p : Progress) : List Char → Option (Progress × List Char)
  | '(' :: s => group? p s
  | ')' :: rest => p.closed?.map (·, rest)
  | '|' :: rest => some (p.withoutItem, rest)
  | '?' :: rest | '*' :: rest | '+' :: rest => if p.item then some (p, rest) else none
  | '\x7b' :: _ => none
  | '.' :: rest => if p.mode.ascii then none else some (p.withItem, rest)
  | '[' :: s => do
    let rest ← afterClass? p.mode (s.length + 1) 0 (← classBody? p.mode s)
    return (p.withItem, rest)
  | '\\' :: s => (escape? p.mode s).map fun (_, rest) => (p.withItem, rest)
  | _ :: rest => some (p.withItem, rest)
  | [] => none

/-- The text goes on as a pattern to its end. Each step takes at least one character. -/
def continues : (fuel : Nat) → Progress → List Char → Bool
  | 0, p, s => s = [] && p.outer = []
  | fuel + 1, p, s =>
    match p.mode.skip s with
    | [] => p.outer = []
    | s =>
      match step? p s with
      | some (p, rest) => continues fuel p rest
      | none => false

/-- The text is a pattern. -/
def isPattern (s : List Char) : Bool :=
  continues s.length .start s

end LuaDecl.Text.Pattern
