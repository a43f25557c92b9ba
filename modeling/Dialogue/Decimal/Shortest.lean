import Dialogue.Decimal.Binary64

/-! The fewest decimal digits that read back as the same binary64 value. -/

namespace Dialogue.Decimal

attribute [local instance(2000)] instPowNat

/-- A decimal: `digits · 10 ^ exponent`. -/
structure Scientific where
  digits : Nat
  exponent : Int
  deriving DecidableEq, Repr

namespace Shortest

/-- The decimals that round to one magnitude, in units of `2 ^ -1076`, and the magnitude. -/
structure Interval where
  low : Nat
  value : Nat
  high : Nat
  closed : Bool

/-- The interval of a positive finite magnitude; its ends belong to it when the mantissa is
even. -/
def Interval.of (b : Nat) : Interval where
  low := Binary64.lowEdge b * 2 ^ Binary64.scale b
  value := 4 * Binary64.units b
  high := (4 * Binary64.mantissa b + 2) * 2 ^ Binary64.scale b
  closed := Binary64.mantissa b % 2 == 0

/-- Both sides of a comparison of `n · 10 ^ k` with `x · 2 ^ -1076`. -/
def scaled (k : Int) (n x : Nat) : Nat × Nat :=
  let one := 2 ^ (1076 : Nat)
  if 0 ≤ k then (n * 10 ^ k.toNat * one, x) else (n * one, x * 10 ^ (-k).toNat)

def Interval.admits (i : Interval) (k : Int) (n : Nat) : Bool :=
  let (a, low) := scaled k n i.low
  let (b, high) := scaled k n i.high
  if i.closed then low ≤ a && b ≤ high else low < a && b < high

/-- Which of the two neighbours `n` and `n + 1` of the value on the grid of `10 ^ k` to write: the
nearer of those that read back, and of two equally near ones the even. -/
def Interval.neighbour? (i : Interval) (k : Int) : Option Nat :=
  let (unit, value) := scaled k 1 i.value
  let n := value / unit
  match i.admits k n, i.admits k (n + 1) with
  | false, false => none
  | true, false => some n
  | false, true => some (n + 1)
  | true, true => some (roundHalfEven value unit)

/-- Tries grids from `10 ^ k` downwards. -/
def Interval.search (i : Interval) : Nat → Int → Scientific
  | 0, k => ⟨(scaled k 1 i.value).2 / (scaled k 1 i.value).1, k⟩
  | steps + 1, k =>
    match i.neighbour? k with
    | some n => ⟨n, k⟩
    | none => i.search steps (k - 1)

/-- A power of ten above the magnitude: `log₁₀ 2` is less than `30103 / 100000`. -/
def coarsest (b : Nat) : Int :=
  ((Nat.log2 (Binary64.units b) : Int) - 1073) * 30103 / 100000 + 1

/-- The shortest decimal of a positive finite magnitude. Seventeen digits always suffice, and the
first grids tried lie at most two places above the first digit. -/
def ofMagnitude (b : Nat) : Scientific :=
  (Interval.of b).search 20 (coarsest b)

end Shortest

/-- How decimals are laid out in a document: between `10 ^ -5` and `10 ^ 16` in positions, with at
least one digit after the point, and otherwise with a signed exponent. -/
def Scientific.layout (d : Scientific) : List Char :=
  let ds := Nat.toDigits 10 d.digits
  let point : Int := ds.length + d.exponent
  if 0 ≤ d.exponent ∧ point ≤ 16 then ds ++ List.replicate d.exponent.toNat '0' ++ ['.', '0']
  else if 0 < point ∧ point ≤ 16 then ds.take point.toNat ++ '.' :: ds.drop point.toNat
  else if -5 < point ∧ point ≤ 0 then '0' :: '.' :: List.replicate (-point).toNat '0' ++ ds
  else
    let sign := if 0 < point then ['+'] else []
    let power := sign ++ (toString (point - 1)).toList
    match ds with
    | [] => []
    | [c] => c :: 'e' :: power
    | c :: cs => c :: '.' :: cs ++ 'e' :: power

/-- A finite value in the fewest digits. -/
def Binary64.toText (x : Binary64) : String :=
  let body := if x.magnitude = 0 then ['0', '.', '0'] else (Shortest.ofMagnitude x.magnitude).layout
  String.ofList (if x.negative then '-' :: body else body)

end Dialogue.Decimal
