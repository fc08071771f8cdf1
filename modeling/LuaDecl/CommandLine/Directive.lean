import LuaDecl.CommandLine.Threshold
import LuaDecl.Text.Blank
import LuaDecl.Text.Bytes
import LuaDecl.Text.Numeral
import LuaDecl.Text.Pattern

/-!
# Log directives

A directive sets the threshold for the events whose target begins with a given text. Brackets after
the target narrow it down: to events with a given field, or to what happens inside a span, a stretch
of work with a name or with the value of a field. A run has no spans, so directives about them never
apply.

The parts of a directive are found in the text without the blanks around it, but they are cut at
their byte positions out of the text with its blanks. So blanks in front shift every cut, perhaps
into the middle of a character, where nothing can be cut.
-/

namespace LuaDecl.CommandLine

open Text

/-- A threshold for some events. -/
structure Directive where
  /-- What the targets begin with. -/
  target : String
  /-- The name of a field that the events have. -/
  field : Option String
  /-- The events happen inside a span of a certain kind. -/
  inSpan : Bool
  threshold : Threshold
  deriving DecidableEq, Repr

/-- Why a text is no directive. -/
inductive DirectiveFault where
  /-- The text breaks the grammar. -/
  | malformed
  /-- A part would begin or end inside a character. -/
  | brokenCharacter
  deriving DecidableEq, Repr

namespace Directive

/-- The part of a text between two byte positions. -/
def cut (text : List Char) (start stop : Nat) : Except DirectiveFault (List Char) :=
  match sliceBytes? start stop text with
  | some part => .ok part
  | none => .error .brokenCharacter

/-- The threshold that is written from a position to the end of the text. No word shows all. -/
def thresholdFrom (text : List Char) (position : Nat) : Except DirectiveFault Threshold := do
  match ← cut text position (byteCount text) with
  | [] => return .trace
  | word =>
    match Threshold.ofWord? word with
    | some threshold => return threshold
    | none => throw .malformed

/-- The threshold after the brackets of a directive, where `position` is reached and `rest` is still
to be read. -/
def thresholdAfterBrackets (text : List Char) (position : Nat) (rest : List Char) :
    Except DirectiveFault Threshold :=
  match rest with
  | [] => .ok .trace
  | '=' :: _ => thresholdFrom text (position + 1)
  | _ => .error .malformed

/-- The name of a field and whether a value for it follows, after an equal sign. A value is a number
or a pattern. -/
def readField (written : List Char) : Except DirectiveFault (String × Bool) :=
  if written = [] then .error .malformed
  else
    match pieces '=' written with
    | name :: value :: _ =>
      if isNumeral value || Pattern.isPattern value then .ok (String.ofList name, true)
      else .error .malformed
    | _ => .ok (String.ofList written, false)

/-- The directive for a target with brackets, read from after the opening one. -/
def bracketed (text target : List Char) (position : Nat) (rest : List Char) :
    Except DirectiveFault Directive := do
  let isInside (c : Char) : Bool := c ≠ ']' && c ≠ '\x7b'
  let stop := position + byteCount (rest.takeWhile isInside)
  let target := String.ofList target
  match rest.dropWhile isInside with
  | ']' :: rest =>
    let _ ← cut text position stop
    return ⟨target, none, true, ← thresholdAfterBrackets text (stop + 1) rest⟩
  | '\x7b' :: rest =>
    let span ← cut text position stop
    let start := stop + 1
    let stop := start + byteCount (rest.takeWhile (· ≠ '\x7d'))
    match rest.dropWhile (· ≠ '\x7d') with
    | '\x7d' :: rest =>
      let (name, hasValue) ← readField (← cut text start stop)
      match rest with
      | ']' :: rest =>
        let threshold ← thresholdAfterBrackets text (stop + 2) rest
        return ⟨target, some name, span ≠ [] || hasValue, threshold⟩
      | _ => throw .malformed
    | _ => throw .malformed
  | _ => throw .malformed

/-- A character that may begin a target. -/
def startsTarget (c : Char) : Bool :=
  c = '-' || c = ':' || c = '_' || isAlphanumeric c

/-- The directive for a target without brackets: a threshold alone counts for everything, a target
alone shows all of it. -/
def unbracketed (text : List Char) : Directive :=
  match Threshold.ofWord? text with
  | some threshold => ⟨"", none, false, threshold⟩
  | none => ⟨String.ofList text, none, false, .trace⟩

/-- The directive that a text spells. -/
def read (text : List Char) : Except DirectiveFault Directive :=
  match trim text with
  | [] => .error .malformed
  | '[' :: rest => bracketed text [] 1 rest
  | first :: rest =>
    if startsTarget first then
      let isTarget (c : Char) : Bool := c ≠ '=' && c ≠ '['
      let stop := byteCount ((first :: rest).takeWhile isTarget)
      match (first :: rest).dropWhile isTarget with
      | [] => .ok (unbracketed text)
      | '[' :: rest => do bracketed text (← cut text 0 stop) (stop + 1) rest
      | _ => do
        let target ← cut text 0 stop
        return ⟨String.ofList target, none, false, ← thresholdFrom text (stop + 1)⟩
    else .error .malformed

/-- The directive is about the event. -/
def concerns (d : Directive) (event : Event) : Bool :=
  !d.inSpan && d.target.toList.isPrefixOf event.target.toList &&
    d.field.all event.fieldNames.contains

/-- The directive counts before an earlier one about the same event: it has a longer target, or else
a field and the other none, or else a field whose name does not come before that of the other. -/
def outranks (d earlier : Directive) : Bool :=
  if d.target.length = earlier.target.length then
    match d.field, earlier.field with
    | none, some _ => false
    | some own, some other => !decide (own < other)
    | _, none => true
  else earlier.target.length < d.target.length

end Directive

end LuaDecl.CommandLine
