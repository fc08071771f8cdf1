/-!
# Dates and times of TOML documents

A moment is a date, a time of day, or a date with a time and perhaps an offset from universal time.
Its numbers have fixed widths and ranges, and a date has to be in the calendar. A moment that stands
in a document follows a stricter grammar than one that is the whole of a text.
-/

namespace LuaDecl.Toml

/-- A number of exactly `width` decimal digits, and the rest. -/
def fixedNumber? : (width : Nat) → List Char → Option (Nat × List Char)
  | 0, s => some (0, s)
  | width + 1, c :: rest =>
    if c.isDigit then
      (fixedNumber? width rest).map fun (n, rest) => ((c.toNat - '0'.toNat) * 10 ^ width + n, rest)
    else none
  | _ + 1, [] => none

/-- A number of two digits within bounds, and the rest. -/
def twoDigits? (low high : Nat) (s : List Char) : Option (Nat × List Char) := do
  let (n, rest) ← fixedNumber? 2 s
  if low ≤ n ∧ n ≤ high then some (n, rest) else none

/-- The rest after one given character. -/
def mark? (mark : Char) : List Char → Option (List Char)
  | c :: rest => if c = mark then some rest else none
  | [] => none

/-- The year has a 29th of February. -/
def isLeapYear (year : Nat) : Bool :=
  year % 4 = 0 && (year % 100 ≠ 0 || year % 400 = 0)

/-- The number of days of a month. -/
def daysInMonth (year month : Nat) : Nat :=
  match month with
  | 2 => if isLeapYear year then 29 else 28
  | 4 | 6 | 9 | 11 => 30
  | _ => 31

/-- The rest after a date, such as `1979-05-27`. -/
def afterDate? (s : List Char) : Option (List Char) := do
  let (year, s) ← fixedNumber? 4 s
  let s ← mark? '-' s
  let (month, s) ← twoDigits? 1 12 s
  let s ← mark? '-' s
  let (_, s) ← twoDigits? 1 (daysInMonth year month) s
  return s

/-- The rest after a fraction of a second. -/
def afterSecondFraction? : List Char → Option (List Char)
  | '.' :: d :: rest => if d.isDigit then some (rest.dropWhile Char.isDigit) else none
  | _ => none

/-- The rest after a time of day, such as `07:32:00.5`, whose hour is at most `lastHour`. A minute
may have a second 60. -/
def afterTime? (lastHour : Nat) (s : List Char) : Option (List Char) := do
  let (_, s) ← twoDigits? 0 lastHour s
  let s ← mark? ':' s
  let (_, s) ← twoDigits? 0 59 s
  let s ← mark? ':' s
  let (_, s) ← twoDigits? 0 60 s
  return (afterSecondFraction? s).getD s

/-- The rest after an offset from universal time: `Z`, or hours and minutes with a sign. -/
def afterOffset? : List Char → Option (List Char)
  | 'Z' :: rest | 'z' :: rest => some rest
  | '+' :: s | '-' :: s => do
    let (_, s) ← twoDigits? 0 23 s
    let s ← mark? ':' s
    let (_, s) ← twoDigits? 0 59 s
    return s
  | _ => none

/-- The rest after the time that follows a date, with the offset if there is one. -/
def afterTimeOfDate? : List Char → Option (List Char)
  | 'T' :: s | 't' :: s | ' ' :: s => do
    let s ← afterTime? 23 s
    return (afterOffset? s).getD s
  | _ => none

/-- The rest after a moment. -/
def afterMoment? (s : List Char) : Option (List Char) :=
  match afterDate? s with
  | some rest => some ((afterTimeOfDate? rest).getD rest)
  | none => afterTime? 23 s

/-- The rest after an offset that is at most a whole day: `Z`, or hours and minutes with a sign. -/
def afterWideOffset? : List Char → Option (List Char)
  | 'Z' :: rest | 'z' :: rest => some rest
  | '+' :: s | '-' :: s => do
    let (hours, s) ← fixedNumber? 2 s
    let s ← mark? ':' s
    let (minutes, s) ← fixedNumber? 2 s
    if hours * 60 + minutes ≤ 24 * 60 then some s else none
  | _ => none

/-- The text is a moment and nothing else. Here the hour 24 counts, and so do offsets of up to a
whole day. -/
def isMomentText (s : List Char) : Bool :=
  match afterDate? s with
  | some [] => true
  | some (mark :: time) =>
    (mark = 'T' || mark = 't' || mark = ' ') &&
      match afterTime? 24 time with
      | some [] => true
      | some offset => afterWideOffset? offset = some []
      | none => false
  | none => afterTime? 24 s = some []

end LuaDecl.Toml
