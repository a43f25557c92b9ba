import Dialogue.Decimal.Literal
import Dialogue.Text.Blank

/-! Instants, the relaxed form in which they are read, which is a date, a time and an offset from
UTC with blanks allowed before every part, and the form in which they are written. -/

namespace Dialogue

attribute [local instance(2000)] instPowNat Zero.ofOfNat0

/-- An instant: seconds since the start of 1970 in UTC, and nanoseconds within the second. A leap
second has more than a second of them. -/
structure Timestamp where
  seconds : Int
  nanos : Nat
  deriving DecidableEq, Repr, Inhabited

namespace Timestamp

open Decimal (isDigit digitValue digitsFrom)

/-- Why a text is not an instant. -/
inductive Problem where
  | tooShort
  | invalid
  | outOfRange
  | impossible
  | tooLong
  deriving DecidableEq, Repr

def Problem.message : Problem → String
  | tooShort => "premature end of input"
  | invalid => "input contains invalid characters"
  | outOfRange => "input is out of range"
  | impossible => "no possible date and time matching input"
  | tooLong => "trailing input"

def skipBlanks (cs : List Char) : List Char := cs.dropWhile Text.isBlank

/-- At least one digit, and at most `width` of them; the number must fit in 63 bits. -/
def number (width : Option Nat) (cs : List Char) : Except Problem (Nat × List Char) :=
  let all := cs.takeWhile isDigit
  let digits := (width.map all.take).getD all
  if cs.isEmpty then .error .tooShort
  else if digits.isEmpty then .error .invalid
  else if 2 ^ (63 : Nat) ≤ digitsFrom 0 digits then .error .outOfRange
  else .ok (digitsFrom 0 digits, cs.drop digits.length)

/-- A number after blanks, within bounds. -/
def field (width low high : Nat) (cs : List Char) : Except Problem (Nat × List Char) := do
  let (n, rest) ← number (some width) (skipBlanks cs)
  if low ≤ n ∧ n ≤ high then .ok (n, rest) else .error .outOfRange

/-- A mark after blanks. -/
def mark (c : Char) (cs : List Char) : Except Problem (List Char) :=
  match skipBlanks cs with
  | [] => .error .tooShort
  | d :: rest => if c = d then .ok rest else .error .invalid

/-- A year: four digits, or any number of them after a sign. -/
def year (cs : List Char) : Except Problem (Int × List Char) := do
  let (n, rest) ← match skipBlanks cs with
    | '-' :: rest => (number none rest).map fun (n, rest) => (-(n : Int), rest)
    | '+' :: rest => (number none rest).map fun (n, rest) => ((n : Int), rest)
    | cs => (number (some 4) cs).map fun (n, rest) => ((n : Int), rest)
  if -(2 ^ (31 : Nat)) ≤ n ∧ n < 2 ^ (31 : Nat) then .ok (n, rest) else .error .outOfRange

/-- Nanoseconds from the digits after a point, of which nine count. -/
def fraction : List Char → Except Problem (Nat × List Char)
  | '.' :: cs => do
    let (n, rest) ← number (some 9) cs
    .ok (n * 10 ^ (9 - (cs.length - rest.length)), rest.dropWhile isDigit)
  | cs => .ok (0, cs)

/-- Two digits of an offset. -/
def offsetDigits (cs : List Char) : Except Problem (Char × Char × List Char) :=
  match cs with
  | a :: b :: rest => .ok (a, b, rest)
  | [a] => if 2 ≤ a.utf8Size then .error .invalid else .error .tooShort
  | [] => .error .tooShort

/-- Hours and minutes of an offset, in seconds. -/
def offsetAmount (cs : List Char) : Except Problem (Nat × List Char) := do
  let (a, b, cs) ← offsetDigits cs
  if !(isDigit a && isDigit b) then .error .invalid
  let cs := cs.dropWhile fun c => c = ':' || Text.isBlank c
  let (c, d, cs) ← offsetDigits cs
  if !(isDigit c && isDigit d) then .error .invalid
  if 6 ≤ digitValue c then .error .outOfRange
  .ok (digitsFrom 0 [a, b] * 3600 + digitsFrom 0 [c, d] * 60, cs)

/-- An offset from UTC in seconds. -/
def offset (cs : List Char) : Except Problem (Int × List Char) :=
  match cs with
  | [] => .error .tooShort
  | c :: rest =>
    if c = 'Z' ∨ c = 'z' then .ok (0, rest)
    else if (cs.take 3).map Char.toLower = ['u', 't', 'c'] then .ok (0, cs.drop 3)
    else if c = '+' then (offsetAmount rest).map fun (n, rest) => ((n : Int), rest)
    else if c = '-' ∨ c = '−' then (offsetAmount rest).map fun (n, rest) => (-(n : Int), rest)
    else .error .invalid

def isLeap (y : Int) : Bool := y % 4 = 0 && (y % 100 ≠ 0 || y % 400 = 0)

def daysIn (y : Int) (month : Nat) : Nat :=
  if month = 2 then (if isLeap y then 29 else 28)
  else if month = 4 ∨ month = 6 ∨ month = 9 ∨ month = 11 then 30
  else 31

/-- Days from the start of 1970 to a date. -/
def dayNumber (y : Int) (month day : Nat) : Int :=
  let before := ((List.range (month - 1)).map fun m => daysIn y (m + 1)).sum
  let p := y - 1
  365 * (y - 1970) + (p / 4 - p / 100 + p / 400 - 477) + before + (day - 1 : Nat)

/-- The least and the greatest year that a date can have. -/
def firstYear : Int := -262143

def lastYear : Int := 262142

/-- Reads an instant. -/
def parse (s : String) : Except Problem Timestamp := do
  let (y, cs) ← year s.toList
  let cs ← mark '-' cs
  let (month, cs) ← field 2 1 12 cs
  let cs ← mark '-' cs
  let (day, cs) ← field 2 1 31 cs
  let cs ← match cs with
    | [] => .error .tooShort
    | c :: rest => if c = 't' ∨ c = 'T' ∨ c = ' ' then .ok rest else .error .invalid
  let (hour, cs) ← field 2 0 23 cs
  let cs ← mark ':' cs
  let (minute, cs) ← field 2 0 59 cs
  let cs ← mark ':' cs
  let (second, cs) ← field 2 0 60 cs
  let (nanos, cs) ← fraction cs
  let (shift, cs) ← offset (skipBlanks cs)
  if !(skipBlanks cs).isEmpty then .error .tooLong
  if y < firstYear ∨ lastYear < y ∨ daysIn y month < day then .error .outOfRange
  if shift ≤ -86400 ∨ 86400 ≤ shift then .error .outOfRange
  let clock := hour * 3600 + minute * 60 + min second 59
  let seconds := dayNumber y month day * 86400 + clock - shift
  if seconds < dayNumber firstYear 1 1 * 86400 ∨
      dayNumber (lastYear + 1) 1 1 * 86400 ≤ seconds then .error .impossible
  .ok ⟨seconds, if second = 60 then nanos + 1000000000 else nanos⟩

/-- The date so many days after the start of 1970. Years are counted from the first of March, in
periods of 400, which all have as many days. -/
def dateOf (days : Int) : Int × Nat × Nat :=
  let fromMarch := days + 719468
  let period := fromMarch / 146097
  let day := (fromMarch % 146097).toNat
  let year := (day - day / 1460 + day / 36524 - day / 146096) / 365
  let day := day - (365 * year + year / 4 - year / 100)
  let month := (5 * day + 2) / 153
  let day := day - (153 * month + 2) / 5 + 1
  let y := 400 * period + year
  if month < 10 then (y, month + 3, day) else (y + 1, month - 9, day)

/-- Digits of a number, with zeros in front up to a width. -/
def padded (width n : Nat) : String :=
  let digits := toString n
  String.ofList (List.replicate (width - digits.length) '0') ++ digits

/-- A year: four digits, with a sign and as many as it takes beyond these. -/
def yearText (y : Int) : String :=
  if 0 ≤ y ∧ y ≤ 9999 then padded 4 y.toNat
  else (if y < 0 then "-" else "+") ++ padded 4 y.natAbs

/-- The part of a second, in thousandths, millionths or billionths, unless there is none. -/
def fractionText (nanos : Nat) : String :=
  if nanos = 0 then ""
  else if nanos % 1000000 = 0 then "." ++ padded 3 (nanos / 1000000)
  else if nanos % 1000 = 0 then "." ++ padded 6 (nanos / 1000)
  else "." ++ padded 9 nanos

/-- Writes an instant, in UTC. A leap second is the second 60 of its minute. -/
def text (t : Timestamp) : String :=
  let (y, month, day) := dateOf (t.seconds / 86400)
  let clock := (t.seconds % 86400).toNat
  let second := clock % 60 + t.nanos / 1000000000
  String.join [yearText y, "-", padded 2 month, "-", padded 2 day, "T", padded 2 (clock / 3600),
    ":", padded 2 (clock / 60 % 60), ":", padded 2 second, fractionText (t.nanos % 1000000000),
    "Z"]

end Timestamp

end Dialogue
