import LuaDecl.Event

/-!
# Thresholds

A threshold lets through the events that matter enough. It is written as a word or as the number of
levels that it lets through.
-/

namespace LuaDecl.CommandLine

/-- The least important level that is shown, if any. -/
inductive Threshold where
  | off
  | error
  | warn
  | info
  | debug
  | trace
  deriving DecidableEq, Repr

namespace Threshold

/-- How many levels the threshold lets through, errors first. -/
def rank : Threshold → Nat
  | off => 0
  | error => 1
  | warn => 2
  | info => 3
  | debug => 4
  | trace => 5

/-- Events of the level are shown. -/
def shows (threshold : Threshold) (level : Level) : Bool :=
  match level with
  | .warn => warn.rank ≤ threshold.rank
  | .info => info.rank ≤ threshold.rank
  | .debug => debug.rank ≤ threshold.rank

/-- The threshold that a word names, in any case. -/
def ofName? (word : List Char) : Option Threshold :=
  match String.ofList (word.map Char.toLower) with
  | "off" => some off
  | "error" => some error
  | "warn" => some warn
  | "info" => some info
  | "debug" => some debug
  | "trace" => some trace
  | _ => none

/-- The threshold of the rank that digits spell. Zeros before the others do not count. -/
def ofDigits? (digits : List Char) : Option Threshold :=
  match digits, digits.dropWhile (· = '0') with
  | [], _ => none
  | _, [] => some off
  | _, ['1'] => some error
  | _, ['2'] => some warn
  | _, ['3'] => some info
  | _, ['4'] => some debug
  | _, ['5'] => some trace
  | _, _ => none

/-- The threshold that a word spells: its rank, perhaps with a plus before it, or its name. -/
def ofWord? : List Char → Option Threshold
  | '+' :: digits => ofDigits? digits
  | word => ofDigits? word <|> ofName? word

end Threshold

end LuaDecl.CommandLine
