import LuaDecl.Definition.Fits

/-!
# Hits of a shape in a text

A shape is looked for at line starts: the start of the text and each place after a line feed. The
search takes the first fit, goes on where it ends, and so on, so hits never overlap. A fit ends
behind a closing parenthesis, which is no line start.
-/

namespace LuaDecl.Definition

/-- One occurrence of a shape: where its text starts, where it ends, and what it captures. -/
structure Hit where
  start : Nat
  stop : Nat
  capture : Capture
  deriving DecidableEq, Repr

namespace Shape

/-- The hits in a text whose first character has the given position. -/
def hitsFrom (shape : Shape) (position : Nat) (atLineStart : Bool) (s : List Char) : List Hit :=
  match s with
  | [] => []
  | c :: rest =>
    match _h : if atLineStart then shape.scan? (c :: rest) else none with
    | some (capture, after) =>
      let stop := position + ((c :: rest).length - after.length)
      ⟨position, stop, capture⟩ :: hitsFrom shape stop false after
    | none => hitsFrom shape (position + 1) (c == '\n') rest
termination_by s.length
decreasing_by
  · split at _h
    · exact length_lt_of_scan? _h
    · simp at _h
  · simp

/-- All hits in a text, in the order of their positions. -/
def hits (shape : Shape) (text : List Char) : List Hit :=
  shape.hitsFrom 0 true text

end Shape

end LuaDecl.Definition
