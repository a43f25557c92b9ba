import Dialogue.Decimal.Binary64

/-! Numbers written as text: natural numbers below a bound, and decimals read to the nearest
binary64 value. -/

namespace Dialogue.Decimal

attribute [local instance(2000)] instPowNat

def isDigit (c : Char) : Bool := '0' ≤ c && c ≤ '9'

/-- The value of a decimal digit. -/
def digitValue (c : Char) : Nat := c.toNat - '0'.toNat

/-- The number that digits write, after `n`. -/
def digitsFrom (n : Nat) (cs : List Char) : Nat :=
  cs.foldl (fun n c => 10 * n + digitValue c) n

/-- The number that one or more digits write. -/
def digits? (cs : List Char) : Option Nat :=
  if cs.isEmpty || !cs.all isDigit then none else some (digitsFrom 0 cs)

/-- A natural number below `bound`, with an optional plus sign. -/
def natural? (bound : Nat) (s : String) : Option Nat :=
  let cs := match s.toList with
    | '+' :: rest => rest
    | cs => cs
  (digits? cs).filter (· < bound)

/-- Magnitude bits of the value nearest to `digits · 10 ^ exponent`. Powers far outside the range
are not computed. -/
def nearestDecimal (digits : Nat) (exponent : Int) : Nat :=
  let places : Int := Nat.log2 digits / 3 + exponent
  if digits = 0 ∨ places < -400 then 0
  else if 400 < exponent then Binary64.infinite
  else if 0 ≤ exponent then Binary64.roundRatio (digits * 10 ^ exponent.toNat) 1
  else Binary64.roundRatio digits (10 ^ (-exponent).toNat)

/-- The exponent after an `e`: an optional sign and at least one digit. -/
def exponent? : List Char → Option Int
  | '-' :: cs => (digits? cs).map fun n => -(n : Int)
  | '+' :: cs => (digits? cs).map Int.ofNat
  | cs => (digits? cs).map Int.ofNat

/-- Digits with at most one point among them and an optional exponent; at least one digit stands
before the exponent. -/
def unsigned? (cs : List Char) : Option Nat :=
  let whole := cs.takeWhile isDigit
  let (fraction, rest) := match cs.dropWhile isDigit with
    | '.' :: rest => (rest.takeWhile isDigit, rest.dropWhile isDigit)
    | rest => ([], rest)
  if whole.isEmpty && fraction.isEmpty then none
  else
    let digits := digitsFrom (digitsFrom 0 whole) fraction
    let value := fun (e : Int) => some (nearestDecimal digits (e - fraction.length))
    match rest with
    | [] => value 0
    | c :: rest => if c = 'e' ∨ c = 'E' then (exponent? rest).bind value else none

/-- Words for infinity and NaN, in any case of letters. -/
def special? (cs : List Char) : Option Nat :=
  let word := String.ofList (cs.map Char.toLower)
  if word = "inf" ∨ word = "infinity" then some Binary64.infinite
  else if word = "nan" then some (Binary64.infinite + 2 ^ (51 : Nat))
  else none

/-- A decimal with an optional sign, to the nearest value. -/
def Binary64.ofText? (s : String) : Option Binary64 :=
  let (negative, cs) := match s.toList with
    | '-' :: rest => (true, rest)
    | '+' :: rest => (false, rest)
    | cs => (false, cs)
  ((unsigned? cs).or (special? cs)).map (Binary64.ofMagnitude negative)

end Dialogue.Decimal
