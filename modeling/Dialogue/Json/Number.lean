import Dialogue.Decimal.Literal
import Dialogue.Json.Document

/-! Numbers in a document. Digits that fit in 64 bits are kept, the others only count as places;
a number that is not an integer is its kept digits, rounded, times or divided by a power of ten,
rounded again. -/

namespace Dialogue

open Decimal (Binary64 isDigit digitValue digitsFrom)

attribute [local instance(2000)] instPowNat

namespace Number

/-- Appends digits to `kept` for as long as the number stays below `2 ^ 64`, and counts those
appended. -/
def keep (kept : Nat) : List Char → Nat × Nat
  | [] => (kept, 0)
  | c :: rest =>
    let next := 10 * kept + digitValue c
    if next < 2 ^ (64 : Nat) then
      let (all, count) := keep next rest
      (all, count + 1)
    else (kept, 0)

/-- The largest power of ten that is used in one step. -/
def topPower : Nat := 308

/-- Magnitude bits divided by a power of ten, `topPower` places at a time. -/
def divideDown (b places : Nat) : Nat :=
  if places ≤ topPower then Binary64.divMagnitude b (Binary64.roundRatio (10 ^ places) 1)
  else if b = 0 then 0
  else
    divideDown (Binary64.divMagnitude b (Binary64.roundRatio (10 ^ topPower) 1))
      (places - topPower)
termination_by places
decreasing_by simp only [topPower] at *; omega

/-- Magnitude bits of kept digits at a power of ten, if they stay finite. -/
def magnitude? (kept : Nat) (exponent : Int) : Option Nat :=
  let b := Binary64.roundRatio kept 1
  if exponent < 0 then some (divideDown b (-exponent).toNat)
  else if exponent ≤ topPower then
    let scaled := Binary64.mulMagnitude b (Binary64.roundRatio (10 ^ exponent.toNat) 1)
    if scaled < Binary64.infinite then some scaled else none
  else if b = 0 then some 0
  else none

/-- The parts of a number as written: sign, digits before the point, digits after it and the
exponent, where there are any. -/
structure Parts where
  negative : Bool
  whole : List Char
  fraction : Option (List Char)
  exponent : Option Int

namespace Parts

/-- The number written, if it is in range. -/
def value? (p : Parts) : Option Number :=
  let (kept, count) := keep 0 p.whole
  let dropped : Int := p.whole.length - count
  match p.fraction, p.exponent with
  | none, none =>
    if dropped = 0 then
      if !p.negative then some (.int kept)
      else if 0 < kept ∧ kept ≤ 2 ^ (63 : Nat) then some (.int (-kept))
      else some (.real (.ofMagnitude true (Binary64.roundRatio kept 1)))
    else (magnitude? kept dropped).map fun b => .real (.ofMagnitude p.negative b)
  | fraction, exponent =>
    let (kept, places) := keep kept (fraction.getD [])
    (magnitude? kept (dropped - places + exponent.getD 0)).map fun b =>
      .real (.ofMagnitude p.negative b)

end Parts

/-- A number that the text cuts short: a reader misses its end, and one that passes over it finds
no digit. -/
def cut : Damage := ⟨.ended, some .malformed⟩

/-- One or more digits and what follows them. -/
def digits : List Char → Except Damage (List Char × List Char)
  | [] => .error cut
  | c :: rest =>
    if isDigit c then .ok (c :: rest.takeWhile isDigit, rest.dropWhile isDigit)
    else .error (.blocking .malformed)

/-- Digits of which the first is zero only when it is the last. -/
def wholePart (cs : List Char) : Except Damage (List Char × List Char) := do
  let (ds, rest) ← digits cs
  match ds with
  | '0' :: _ :: _ => .error (.blocking .malformed)
  | _ => .ok (ds, rest)

/-- A point with digits after it, if there is one. -/
def fractionPart : List Char → Except Damage (Option (List Char) × List Char)
  | '.' :: rest => do
    let (ds, rest) ← digits rest
    .ok (some ds, rest)
  | rest => .ok (none, rest)

/-- The digits of an exponent, read as a number. -/
def exponentDigits (negative : Bool) (cs : List Char) :
    Except Damage (Option Int × List Char) := do
  let (ds, rest) ← digits cs
  let n : Int := digitsFrom 0 ds
  .ok (some (if negative then -n else n), rest)

/-- An exponent, if there is one. -/
def exponentPart : List Char → Except Damage (Option Int × List Char)
  | c :: rest =>
    if c = 'e' ∨ c = 'E' then
      match rest with
      | '-' :: rest => exponentDigits true rest
      | '+' :: rest => exponentDigits false rest
      | rest => exponentDigits false rest
    else .ok (none, c :: rest)
  | [] => .ok (none, [])

/-- The parts of the number at the start of a text, and the text after it. -/
def parts (cs : List Char) : Except Damage (Parts × List Char) := do
  let (negative, cs) := match cs with
    | '-' :: rest => (true, rest)
    | cs => (false, cs)
  let (whole, cs) ← wholePart cs
  let (fraction, cs) ← fractionPart cs
  let (exponent, cs) ← exponentPart cs
  .ok (⟨negative, whole, fraction, exponent⟩, cs)

/-- The number at the start of a text, and the text after it. -/
def scan (cs : List Char) : Token Number × List Char :=
  match parts cs with
  | .error d => (.error d, cs)
  | .ok (p, rest) => (match p.value? with
    | some n => .ok n
    | none => .error .valueOnly, rest)

end Number

end Dialogue
