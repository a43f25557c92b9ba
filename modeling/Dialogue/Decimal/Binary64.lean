/-! Binary floating-point values of 64 bits, in exact arithmetic on their bits. A finite magnitude
is `mantissa · 2 ^ scale / 2 ^ 1074`. -/

namespace Dialogue.Decimal

-- powers are the core library's, whatever else is imported
attribute [local instance(2000)] instPowNat

/-- The quotient nearest to `num / den`; a half goes to the even neighbour. -/
def roundHalfEven (num den : Nat) : Nat :=
  let q := num / den
  let r := num % den
  if 2 * r < den then q
  else if den < 2 * r then q + 1
  else q + q % 2

/-- A value of binary64, by its bits: sign, eleven of exponent, fifty-two of fraction. -/
structure Binary64 where
  bits : UInt64
  deriving DecidableEq, Repr

namespace Binary64

/-- The magnitude bits of infinity; those of a NaN are greater. -/
def infinite : Nat := 0x7FF0000000000000

def negative (x : Binary64) : Bool :=
  2 ^ (63 : Nat) ≤ x.bits.toNat

/-- The bits without the sign. -/
def magnitude (x : Binary64) : Nat :=
  x.bits.toNat % 2 ^ (63 : Nat)

def isNaN (x : Binary64) : Bool :=
  infinite < x.magnitude

/-- The mantissa that magnitude bits stand for, with its leading bit. -/
def mantissa (b : Nat) : Nat :=
  if b < 2 ^ (52 : Nat) then b else b % 2 ^ (52 : Nat) + 2 ^ (52 : Nat)

/-- The power of two, counted from the least one, that the mantissa is multiplied by. -/
def scale (b : Nat) : Nat :=
  b / 2 ^ (52 : Nat) - 1

/-- A finite magnitude in units of `2 ^ -1074`. -/
def units (b : Nat) : Nat :=
  mantissa b * 2 ^ scale b

/-- Magnitude bits of the value nearest to `num / den`. A half goes to the even mantissa, and
what is too large becomes infinite. -/
def roundRatio (num den : Nat) : Nat :=
  let shifted := num * 2 ^ (1074 : Nat)
  let s := Nat.log2 (shifted / den) - 52
  min infinite (s * 2 ^ (52 : Nat) + roundHalfEven shifted (den * 2 ^ s))

def ofMagnitude (negative : Bool) (b : Nat) : Binary64 :=
  ⟨UInt64.ofNat (if negative then b + 2 ^ (63 : Nat) else b)⟩

/-- The value nearest to a fraction. -/
def ofRatio (negative : Bool) (num den : Nat) : Binary64 :=
  ofMagnitude negative (roundRatio num den)

/-- The value nearest to an integer. -/
def ofInt (i : Int) : Binary64 :=
  ofRatio (i < 0) i.natAbs 1

/-- Magnitude bits of a rounded product of finite magnitudes. -/
def mulMagnitude (a b : Nat) : Nat :=
  roundRatio (units a * units b) (2 ^ (2148 : Nat))

/-- Magnitude bits of a rounded quotient of finite magnitudes. -/
def divMagnitude (a b : Nat) : Nat :=
  roundRatio (units a) (units b)

/-- Four times the point, in units of the mantissa's last bit, halfway to the next smaller
magnitude. Below a power of two the gap is half as wide. -/
def lowEdge (b : Nat) : Nat :=
  if mantissa b = 2 ^ (52 : Nat) ∧ 0 < scale b then 4 * mantissa b - 1 else 4 * mantissa b - 2

/-- Whether the value nearest to `num / den` is at least `x`: whether the fraction is not below
the point halfway to the value under `x`. -/
def atMostRatio (x : Binary64) (num den : Nat) : Bool :=
  if x.isNaN then false
  else if x.negative || x.magnitude == 0 then true
  else
    let edge := lowEdge x.magnitude * 2 ^ scale x.magnitude * den
    let point := num * 2 ^ (1076 : Nat)
    if mantissa x.magnitude % 2 = 0 then edge ≤ point else edge < point

end Binary64

end Dialogue.Decimal
