/-!
# Numbers of TOML documents

Integers are decimal with an optional sign, or hexadecimal, octal or binary without one, and fit in
64 bits. Floats are decimal with a fraction, an exponent, or both. A single underscore may stand
between digits. A float so large that its nearest double is infinite is refused when it is positive.
-/

namespace LuaDecl.Toml

/-- The value of a digit in bases up to sixteen. -/
def digitValue (c : Char) : Nat :=
  if c.isDigit then c.toNat - '0'.toNat else c.toLower.toNat - 'a'.toNat + 10

/-- The number that digits spell in a base. -/
def digitsValue (base : Nat) (digits : List Char) : Nat :=
  digits.foldl (fun n c => base * n + digitValue c) 0

/-- Digits and the rest, where a single underscore may stand before each digit. -/
def moreDigits (isDigit : Char → Bool) : List Char → List Char × List Char
  | '_' :: d :: rest =>
    if isDigit d then
      let (digits, rest) := moreDigits isDigit rest
      (d :: digits, rest)
    else ([], '_' :: d :: rest)
  | d :: rest =>
    if isDigit d then
      let (digits, rest) := moreDigits isDigit rest
      (d :: digits, rest)
    else ([], d :: rest)
  | [] => ([], [])

/-- One or more digits without their underscores, and the rest. -/
def digits? (isDigit : Char → Bool) : List Char → Option (List Char × List Char)
  | d :: rest =>
    if isDigit d then
      let (digits, rest) := moreDigits isDigit rest
      some (d :: digits, rest)
    else none
  | [] => none

/-- A sign and the rest. The sign is set for a minus. -/
def sign : List Char → Bool × List Char
  | '-' :: rest => (true, rest)
  | '+' :: rest => (false, rest)
  | s => (false, s)

/-- The whole part of a decimal number: its sign, its digits and the rest. A zero stands alone. -/
def wholePart? (s : List Char) : Option (Bool × List Char × List Char) :=
  let (negative, s) := sign s
  match s with
  | '0' :: rest => some (negative, ['0'], rest)
  | s => (digits? Char.isDigit s).map fun (digits, rest) => (negative, digits, rest)

/-- The number fits in 64 bits with a sign. -/
def fitsInt64 (n : Int) : Bool :=
  -9223372036854775808 ≤ n && n ≤ 9223372036854775807

/-- The character is an octal digit. -/
def isOctalDigit (c : Char) : Bool :=
  '0' ≤ c && c ≤ '7'

/-- The character is a binary digit. -/
def isBinaryDigit (c : Char) : Bool :=
  c = '0' || c = '1'

/-- The character is a hexadecimal digit. -/
def isHexDigit (c : Char) : Bool :=
  c.isDigit || ('a' ≤ c && c ≤ 'f') || ('A' ≤ c && c ≤ 'F')

/-- An integer in a base other than ten, after its mark. -/
def basedInteger? (base : Nat) (isDigit : Char → Bool) (s : List Char) :
    Option (Int × List Char) := do
  let (digits, rest) ← digits? isDigit s
  let n : Int := digitsValue base digits
  if fitsInt64 n then some (n, rest) else none

/-- An integer and the rest. -/
def integer? : List Char → Option (Int × List Char)
  | '0' :: 'x' :: s => basedInteger? 16 isHexDigit s
  | '0' :: 'o' :: s => basedInteger? 8 isOctalDigit s
  | '0' :: 'b' :: s => basedInteger? 2 isBinaryDigit s
  | s => do
    let (negative, digits, rest) ← wholePart? s
    let size : Int := digitsValue 10 digits
    let n := if negative then -size else size
    if fitsInt64 n then some (n, rest) else none

/-- The fraction after a point: its digits and the rest. -/
def fraction? : List Char → Option (List Char × List Char)
  | '.' :: s => digits? Char.isDigit s
  | _ => none

/-- The exponent and the rest. -/
def exponent? : List Char → Option (Int × List Char)
  | 'e' :: s | 'E' :: s => do
    let (negative, s) := sign s
    let (digits, rest) ← digits? Char.isDigit s
    let size : Int := digitsValue 10 digits
    return (if negative then -size else size, rest)
  | _ => none

/-- The least number whose nearest double is infinite: halfway from the largest double to the next
power of two. -/
def doubleBound : Nat :=
  Nat.pow 2 1024 - Nat.pow 2 970

/-- The nearest double of `mantissa * 10 ^ exponent` is infinite. Far from the bound the number of
digits decides, so that no huge power is computed. -/
def overflowsDouble (mantissa : Nat) (exponent : Int) : Bool :=
  let size : Int := (Nat.toDigits 10 mantissa).length + exponent
  if mantissa = 0 || size < 300 then false
  else if 320 < size then true
  else if 0 ≤ exponent then doubleBound ≤ mantissa * Nat.pow 10 exponent.toNat
  else doubleBound * Nat.pow 10 (-exponent).toNat ≤ mantissa

/-- The rest after an unsigned `inf` or `nan`. -/
def specialFloat? : List Char → Option (List Char)
  | 'i' :: 'n' :: 'f' :: rest => some rest
  | 'n' :: 'a' :: 'n' :: rest => some rest
  | _ => none

/-- The rest after a decimal float. -/
def decimalFloat? (s : List Char) : Option (List Char) := do
  let (negative, whole, s) ← wholePart? s
  let accept (fraction : List Char) (exponent : Int) (rest : List Char) : Option (List Char) :=
    let mantissa := digitsValue 10 (whole ++ fraction)
    if !negative && overflowsDouble mantissa (exponent - fraction.length) then none else some rest
  match exponent? s, fraction? s with
  | some (exponent, rest), _ => accept [] exponent rest
  | none, some (fraction, rest) =>
    match exponent? rest with
    | some (exponent, rest) => accept fraction exponent rest
    | none => accept fraction 0 rest
  | none, none => none

/-- The rest after a float. -/
def afterFloat? (s : List Char) : Option (List Char) :=
  decimalFloat? s <|> specialFloat? (sign s).2

end LuaDecl.Toml
