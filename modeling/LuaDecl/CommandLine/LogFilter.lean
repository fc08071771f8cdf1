import LuaDecl.CommandLine.Directive

/-!
# Log filters

A filter is a list of directives. Of the directives about an event the most specific one decides, of
equally specific ones the last. An event without a directive is not shown.
-/

namespace LuaDecl.CommandLine

open Text

/-- Directives in the order in which they are written. -/
abbrev LogFilter :=
  List Directive

namespace LogFilter

/-- The filter that a text spells: directives between commas, empty ones left out. The first fault
counts. -/
def read (text : String) : Except DirectiveFault LogFilter :=
  ((pieces ',' text.toList).filter (· ≠ [])).mapM Directive.read

/-- The directive that decides about an event. -/
def directive? (filter : LogFilter) (event : Event) : Option Directive :=
  (filter.filter (·.concerns event)).foldl
    (fun best d => if best.all d.outranks then some d else best) none

/-- The event is shown. -/
def shows (filter : LogFilter) (event : Event) : Bool :=
  match filter.directive? event with
  | some d => d.threshold.shows event.level
  | none => false

/-- The filter of a verbosity: warnings, with one step more also progress, then everything. -/
def ofVerbosity (verbosity : Nat) : LogFilter :=
  let threshold : Threshold :=
    match verbosity with
    | 0 => .warn
    | 1 => .info
    | _ => .debug
  [⟨"luastub", none, false, threshold⟩, ⟨"luastub_core", none, false, threshold⟩]

/-- The filter of a run. A filter from the environment counts only if it is well formed and the
verbosity is not raised. One that breaks a character in two leaves no filter at all. -/
def choose? (verbosity : Nat) (environment : Option String) : Option LogFilter :=
  match environment.map read with
  | some (.ok filter) => some (if verbosity = 0 then filter else ofVerbosity verbosity)
  | some (.error .brokenCharacter) => none
  | some (.error .malformed) | none => some (ofVerbosity verbosity)

end LogFilter

end LuaDecl.CommandLine
