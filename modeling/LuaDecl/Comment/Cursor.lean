import LuaDecl.Comment.Long
import LuaDecl.Text.Bytes

/-!
# Long comments by byte positions

The removal of long comments as a loop over byte positions. Whatever may fail on the way is checked:
a slice must lie in the text and not cut a character, a byte that is read must be there, and no
difference may be negative.
-/

namespace LuaDecl.Comment

open Text

/-- What every opener begins with. -/
def longMark : List Char :=
  ['-', '-', '[']

/-- Where the loop stands. The source up to `copied` is dealt with, `kept` is what was kept of it,
and the next opener is looked for from `cursor` on. -/
structure Cursor where
  copied : Nat
  cursor : Nat
  kept : List Char
  deriving DecidableEq, Repr

def Cursor.start : Cursor where
  copied := 0
  cursor := 0
  kept := []

/-- The place of the next opener, if there is one. -/
def opener? (source : List Char) (cursor : Nat) : Option (Option Nat) := do
  let rest ← dropBytes? cursor source
  return (findBytes? longMark rest).map (cursor + ·)

/-- The place of the first byte that is no equal sign, or the end. -/
def signsEnd? (bytes : List UInt8) (position : Nat) : Option Nat :=
  if _h : position < bytes.length then do
    let byte ← bytes[position]?
    if byte = '='.toUInt8 then signsEnd? bytes (position + 1) else return position
  else some position
termination_by bytes.length - position

/-- The difference, unless it is negative. -/
def minus? (a b : Nat) : Option Nat :=
  if b ≤ a then some (a - b) else none

/-- The level of an opener, from its place and the end of its signs. -/
def level? (opener levelEnd : Nat) : Option Nat := do
  minus? (← minus? levelEnd opener) 3

/-- The place behind the comment that an opener begins, if a close of its level follows. -/
def commentEnd? (source : List Char) (opener : Nat) : Option (Option Nat) := do
  let bytes := encode source
  let levelEnd ← signsEnd? bytes (opener + 3)
  if bytes[levelEnd]? = some '['.toUInt8 then
    let body := levelEnd + 1
    let level ← level? opener levelEnd
    let rest ← dropBytes? body source
    return (findBytes? (longClose level) rest).map fun length =>
      body + length + byteCount (longClose level)
  else return none

/-- The part of the source between two places, of which the first must not be behind the second. -/
def between? (start stop : Nat) (source : List Char) : Option (List Char) :=
  if start ≤ stop then sliceBytes? start stop source else none

/-- One round of the loop, which leads to the next cursor unless no opener is left. There is no
result if a check fails. -/
def step? (source : List Char) (c : Cursor) : Option (Option Cursor) := do
  match ← opener? source c.cursor with
  | none => return none
  | some opener =>
    match ← commentEnd? source opener with
    | none => return some { c with cursor := opener + 1 }
    | some stop =>
      let part ← between? c.copied opener source
      return some { copied := stop, cursor := stop, kept := c.kept ++ part }

end LuaDecl.Comment
