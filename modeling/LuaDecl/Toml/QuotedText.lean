import LuaDecl.Text.Hexadecimal
import LuaDecl.Toml.Layout

/-!
# Texts of TOML documents

A text is written in one of four ways: between quotation marks with escapes, between apostrophes as
it is, and each of these also between triple marks, over several lines. A line break right after a
triple opening mark does not count, and a backslash at the end of a line takes away the line break
and all blanks after it.
-/

namespace LuaDecl.Toml

open Text

/-- A character that stands for itself between quotation marks. -/
def isBasicChar (c : Char) : Bool :=
  c = '\t' || (' ' ≤ c && c ≠ '"' && c ≠ '\\' && c ≠ '\x7f')

/-- A character that stands for itself between apostrophes. -/
def isLiteralChar (c : Char) : Bool :=
  c = '\t' || (' ' ≤ c && c ≠ '\'' && c ≠ '\x7f')

/-- The character that a backslash and the given letter stand for. -/
def shortEscape? : Char → Option Char
  | 'b' => some '\x08'
  | 't' => some '\t'
  | 'n' => some '\n'
  | 'f' => some '\x0c'
  | 'r' => some '\r'
  | '"' => some '"'
  | '\\' => some '\\'
  | _ => none

/-- A text and the rest, with a character put before the text. -/
def consText (c : Char) (read : List Char × List Char) : List Char × List Char :=
  (c :: read.1, read.2)

/-- The text up to the closing quotation mark, and the rest after it. -/
def basicBody? : List Char → Option (List Char × List Char)
  | '"' :: rest => some ([], rest)
  | '\\' :: 'u' :: a :: b :: c :: d :: rest => do
    let char ← codePoint? [a, b, c, d]
    (basicBody? rest).map (consText char)
  | '\\' :: 'U' :: a :: b :: c :: d :: e :: f :: g :: h :: rest => do
    let char ← codePoint? [a, b, c, d, e, f, g, h]
    (basicBody? rest).map (consText char)
  | '\\' :: letter :: rest => do
    let char ← shortEscape? letter
    (basicBody? rest).map (consText char)
  | c :: rest => if isBasicChar c then (basicBody? rest).map (consText c) else none
  | [] => none

/-- What a backslash at the end of a line does to the blanks that follow. -/
inductive Folding where
  /-- No backslash came before: blanks are text. -/
  | off
  /-- A backslash and a blank came before: a line break has to follow. -/
  | awaited
  /-- A backslash and a line break came before: blanks do not count. -/
  | on
  deriving DecidableEq

/-- The text up to the closing triple quotation mark, and the rest after it. Up to two quotation
marks may stand right before the closing ones. -/
def multilineBasicBody? : Folding → List Char → Option (List Char × List Char)
  | .awaited, ' ' :: rest | .awaited, '\t' :: rest => multilineBasicBody? .awaited rest
  | .awaited, '\n' :: rest | .awaited, '\r' :: '\n' :: rest => multilineBasicBody? .on rest
  | .awaited, _ => none
  | .on, ' ' :: rest | .on, '\t' :: rest => multilineBasicBody? .on rest
  | .on, '\n' :: rest | .on, '\r' :: '\n' :: rest => multilineBasicBody? .on rest
  | _, '"' :: '"' :: '"' :: '"' :: '"' :: rest => some (['"', '"'], rest)
  | _, '"' :: '"' :: '"' :: '"' :: rest => some (['"'], rest)
  | _, '"' :: '"' :: '"' :: rest => some ([], rest)
  | _, '"' :: rest => (multilineBasicBody? .off rest).map (consText '"')
  | _, '\n' :: rest | _, '\r' :: '\n' :: rest =>
    (multilineBasicBody? .off rest).map (consText '\n')
  | _, '\\' :: ' ' :: rest | _, '\\' :: '\t' :: rest => multilineBasicBody? .awaited rest
  | _, '\\' :: '\n' :: rest | _, '\\' :: '\r' :: '\n' :: rest => multilineBasicBody? .on rest
  | _, '\\' :: 'u' :: a :: b :: c :: d :: rest => do
    let char ← codePoint? [a, b, c, d]
    (multilineBasicBody? .off rest).map (consText char)
  | _, '\\' :: 'U' :: a :: b :: c :: d :: e :: f :: g :: h :: rest => do
    let char ← codePoint? [a, b, c, d, e, f, g, h]
    (multilineBasicBody? .off rest).map (consText char)
  | _, '\\' :: letter :: rest => do
    let char ← shortEscape? letter
    (multilineBasicBody? .off rest).map (consText char)
  | _, c :: rest => if isBasicChar c then (multilineBasicBody? .off rest).map (consText c) else none
  | _, [] => none

/-- The text up to the closing apostrophe, and the rest after it. -/
def literalBody? (s : List Char) : Option (List Char × List Char) :=
  match s.dropWhile isLiteralChar with
  | '\'' :: rest => some (s.takeWhile isLiteralChar, rest)
  | _ => none

/-- The text up to the closing triple apostrophe, and the rest after it. Up to two apostrophes may
stand right before the closing ones. -/
def multilineLiteralBody? : List Char → Option (List Char × List Char)
  | '\'' :: '\'' :: '\'' :: '\'' :: '\'' :: rest => some (['\'', '\''], rest)
  | '\'' :: '\'' :: '\'' :: '\'' :: rest => some (['\''], rest)
  | '\'' :: '\'' :: '\'' :: rest => some ([], rest)
  | '\'' :: rest => (multilineLiteralBody? rest).map (consText '\'')
  | '\n' :: rest | '\r' :: '\n' :: rest => (multilineLiteralBody? rest).map (consText '\n')
  | c :: rest => if isLiteralChar c then (multilineLiteralBody? rest).map (consText c) else none
  | [] => none

/-- The rest after one line break, if there is one. -/
def skipLineBreak (s : List Char) : List Char :=
  (lineBreak? s).getD s

/-- The text that begins a document part, and the rest. -/
def quotedText? : List Char → Option (List Char × List Char)
  | '"' :: '"' :: '"' :: rest => multilineBasicBody? .off (skipLineBreak rest)
  | '\'' :: '\'' :: '\'' :: rest => multilineLiteralBody? (skipLineBreak rest)
  | '"' :: rest => basicBody? rest
  | '\'' :: rest => literalBody? rest
  | _ => none

end LuaDecl.Toml
