import Dialogue.Json.Printer
import Dialogue.Json.Reader

/-! Integers and strings read back from their text: what is read stops where the printed token ends,
and what stands behind it is left. -/

namespace Dialogue

attribute [local instance(2000)] instPowNat

namespace Document

/-- Text behind a value: it ends, or the container around the value goes on or ends. -/
def FollowsValue (rest : List Char) : Prop :=
  ∀ c ∈ rest.head?, c = ',' ∨ c = ']' ∨ c = '\x7d'

theorem followsValue_nil : FollowsValue [] := nofun

theorem followsValue_cons {c : Char} (cs : List Char) (hc : c = ',' ∨ c = ']' ∨ c = '\x7d') :
    FollowsValue (c :: cs) := by
  simpa [FollowsValue] using hc

/-- Behind a value stands nothing that a number could go on with. -/
theorem FollowsValue.no_digit {rest : List Char} (hrest : FollowsValue rest) :
    rest.takeWhile Decimal.isDigit = [] ∧ rest.dropWhile Decimal.isDigit = rest := by
  cases rest with
  | nil => exact ⟨rfl, rfl⟩
  | cons c cs =>
    have hc : Decimal.isDigit c = false := by
      rcases hrest c rfl with rfl | rfl | rfl <;> decide
    simp [hc]

end Document

namespace Number

open Decimal (isDigit digitsFrom)
open Document (FollowsValue)

def FitsWord : Number → Prop
  | int i => -(2 ^ (63 : Nat)) ≤ i ∧ i < 2 ^ (64 : Nat)
  | real _ => False

instance : DecidablePred FitsWord := fun n =>
  match n with
  | int i => inferInstanceAs (Decidable (-(2 ^ (63 : Nat)) ≤ i ∧ i < 2 ^ (64 : Nat)))
  | real _ => inferInstanceAs (Decidable False)

/-! ### The digits of a natural number -/

theorem digitsFrom_toDigits (n : Nat) : digitsFrom 0 (Nat.toDigits 10 n) = n :=
  Nat.ofDigitChars_ten_toDigits

theorem isDigit_of_mem_toDigits {n : Nat} {c : Char} (hc : c ∈ Nat.toDigits 10 n) :
    isDigit c = true :=
  Nat.isDigit_of_mem_toDigits (by decide) (by decide) hc

theorem head?_toDigits {n : Nat} (hn : 0 < n) : (Nat.toDigits 10 n).head? ≠ some '0' := by
  induction n using Nat.strongRecOn with
  | ind n ih =>
    by_cases hlt : n < 10
    · rw [Nat.toDigits_of_lt_base hlt, List.head?_cons]
      have hchar : ∀ d < 10, 0 < d → Nat.digitChar d ≠ '0' := by decide
      simpa using hchar n hlt hn
    · have hfront := ih (n / 10) (by omega) (by omega)
      rw [Nat.toDigits_of_base_le (by decide) (by omega)]
      cases hdigits : Nat.toDigits 10 (n / 10) with
      | nil => exact absurd hdigits Nat.toDigits_ne_nil
      | cons d ds => rwa [hdigits] at hfront

theorem toDigits_ne_zero_cons (n : Nat) (d : Char) (ds : List Char) :
    Nat.toDigits 10 n ≠ '0' :: d :: ds := by
  intro h
  rcases Nat.eq_zero_or_pos n with rfl | hn
  · cases h
  · exact head?_toDigits hn (by rw [h]; rfl)

theorem le_digitsFrom (n : Nat) (ds : List Char) : n ≤ digitsFrom n ds := by
  induction ds generalizing n with
  | nil => exact Nat.le_refl n
  | cons d ds ih =>
    calc n ≤ 10 * n + Decimal.digitValue d := by omega
      _ ≤ digitsFrom n (d :: ds) := ih _

theorem keep_of_lt {n : Nat} {ds : List Char} (h : digitsFrom n ds < 2 ^ (64 : Nat)) :
    keep n ds = (digitsFrom n ds, ds.length) := by
  induction ds generalizing n with
  | nil => rfl
  | cons d ds ih =>
    have hnext : 10 * n + Decimal.digitValue d < 2 ^ (64 : Nat) :=
      Nat.lt_of_le_of_lt (le_digitsFrom _ ds) h
    simp only [keep, if_pos hnext, ih h]
    rfl

/-! ### The text of an integer -/

variable {rest : List Char}

theorem wholePart_toDigits (n : Nat) (hrest : FollowsValue rest) :
    wholePart (Nat.toDigits 10 n ++ rest) = .ok (Nat.toDigits 10 n, rest) := by
  have hdigits : digits (Nat.toDigits 10 n ++ rest) = .ok (Nat.toDigits 10 n, rest) := by
    have hall := fun c => @isDigit_of_mem_toDigits n c
    cases hds : Nat.toDigits 10 n with
    | nil => exact absurd hds Nat.toDigits_ne_nil
    | cons d ds =>
      rw [hds] at hall
      have htail : ∀ c ∈ ds, isDigit c = true := fun c hc => hall c (List.mem_cons_of_mem _ hc)
      simp only [List.cons_append, digits, hall d List.mem_cons_self, if_true,
        List.takeWhile_append_of_pos htail, List.dropWhile_append_of_pos htail, hrest.no_digit,
        List.append_nil]
  simp only [wholePart, hdigits, bind, Except.bind]
  split
  · next h => exact absurd h (toDigits_ne_zero_cons n _ _)
  · rfl

theorem fractionPart_of_followsValue (hrest : FollowsValue rest) :
    fractionPart rest = .ok (none, rest) := by
  cases rest with
  | nil => rfl
  | cons c cs => rcases hrest c rfl with rfl | rfl | rfl <;> rfl

theorem exponentPart_of_followsValue (hrest : FollowsValue rest) :
    exponentPart rest = .ok (none, rest) := by
  cases rest with
  | nil => rfl
  | cons c cs => rcases hrest c rfl with rfl | rfl | rfl <;> rfl

theorem parts_toDigits (n : Nat) (hrest : FollowsValue rest) :
    parts (Nat.toDigits 10 n ++ rest) = .ok (⟨false, Nat.toDigits 10 n, none, none⟩, rest) := by
  have hunsigned : ∀ cs, Nat.toDigits 10 n ++ rest ≠ '-' :: cs := by
    intro cs h
    cases hds : Nat.toDigits 10 n with
    | nil => exact Nat.toDigits_ne_nil hds
    | cons d ds =>
      have hd := @isDigit_of_mem_toDigits n d (by rw [hds]; exact List.mem_cons_self)
      rw [hds, List.cons_append] at h
      cases h
      exact absurd hd (by decide)
  rw [parts]
  · simp only [wholePart_toDigits n hrest, fractionPart_of_followsValue hrest,
      exponentPart_of_followsValue hrest, bind, Except.bind]
  · exact hunsigned

theorem parts_minus_toDigits (n : Nat) (hrest : FollowsValue rest) :
    parts ('-' :: (Nat.toDigits 10 n ++ rest)) =
      .ok (⟨true, Nat.toDigits 10 n, none, none⟩, rest) := by
  simp only [parts, wholePart_toDigits n hrest, fractionPart_of_followsValue hrest,
    exponentPart_of_followsValue hrest, bind, Except.bind]

theorem value?_toDigits {n : Nat} (hn : n < 2 ^ (64 : Nat)) :
    Parts.value? ⟨false, Nat.toDigits 10 n, none, none⟩ = some (.int n) := by
  have hkeep := @keep_of_lt 0 (Nat.toDigits 10 n) (by rwa [digitsFrom_toDigits])
  simp [Parts.value?, hkeep, digitsFrom_toDigits]

theorem value?_minus_toDigits {n : Nat} (hpos : 0 < n) (hn : n ≤ 2 ^ (63 : Nat)) :
    Parts.value? ⟨true, Nat.toDigits 10 n, none, none⟩ = some (.int (-n)) := by
  have hlt : n < 2 ^ (64 : Nat) := by omega
  have hkeep := @keep_of_lt 0 (Nat.toDigits 10 n) (by rwa [digitsFrom_toDigits])
  simp only [Nat.reducePow] at hn
  simp [Parts.value?, hkeep, digitsFrom_toDigits, hpos, hn]

theorem chars_int (i : Int) :
    (Number.int i).chars =
      if 0 ≤ i then Nat.toDigits 10 i.toNat else '-' :: Nat.toDigits 10 (-i).toNat := by
  rw [chars, Int.toString_eq_repr, Int.repr_eq_if]
  split <;> simp [Nat.repr_eq_ofList_toDigits]

theorem chars_eq_cons {n : Number} (hn : n.FitsWord) :
    ∃ c cs, n.chars = c :: cs ∧ (c = '-' ∨ isDigit c = true) := by
  cases n with
  | real x => exact hn.elim
  | int i =>
    rw [chars_int]
    split
    · cases hds : Nat.toDigits 10 i.toNat with
      | nil => exact absurd hds Nat.toDigits_ne_nil
      | cons d ds =>
        exact ⟨d, ds, rfl, .inr (isDigit_of_mem_toDigits (by rw [hds]; exact List.mem_cons_self))⟩
    · exact ⟨'-', _, rfl, .inl rfl⟩

theorem scan_chars {n : Number} (hn : n.FitsWord) (hrest : FollowsValue rest) :
    scan (n.chars ++ rest) = (.ok n, rest) := by
  cases n with
  | real x => exact hn.elim
  | int i =>
    obtain ⟨hlow, hhigh⟩ := hn
    rw [chars_int]
    split
    · next hi =>
      obtain ⟨n, rfl⟩ := Int.eq_ofNat_of_zero_le hi
      rw [Int.toNat_natCast, scan, parts_toDigits n hrest]
      simp only [value?_toDigits (show n < 2 ^ (64 : Nat) by omega)]
    · next hi =>
      obtain ⟨n, hneg⟩ := Int.eq_ofNat_of_zero_le (show 0 ≤ -i by omega)
      obtain rfl : i = -n := by omega
      rw [Int.neg_neg, Int.toNat_natCast, List.cons_append, scan, parts_minus_toDigits n hrest]
      simp only [value?_minus_toDigits (show 0 < n by omega) (show n ≤ 2 ^ (63 : Nat) by omega)]

end Number

namespace Document

/-! ### Strings -/

theorem hex4?_hex4 {n : Nat} (hn : n < 0x10000) :
    ∃ a b c d, Json.hex4 n = [a, b, c, d] ∧ hex4? a b c d = some n := by
  have hdigit : ∀ d < 16, hexValue? (Nat.digitChar d) = some d := by decide
  refine ⟨_, _, _, _, rfl, ?_⟩
  simp only [hex4?, hdigit _ (Nat.mod_lt _ (by decide : 0 < 16)), Option.bind_eq_bind,
    Option.bind_some, Option.some.injEq]
  omega

theorem pushUnit_control {c : Char} (hc : c.toNat < 0x20) (acc : List Char) :
    Partial.pushUnit ⟨.ok acc, none⟩ c.toNat = ⟨.ok (c :: acc), none⟩ := by
  have hlow : ¬ (0xDC00 ≤ c.toNat ∧ c.toNat ≤ 0xDFFF) := by omega
  have hhigh : ¬ (0xD800 ≤ c.toNat ∧ c.toNat ≤ 0xDBFF) := by omega
  rw [Partial.pushUnit, if_neg hlow, if_neg hhigh, Char.ofNat_toNat]
  rfl

/-- What one character of a string is written as is read as this character. -/
theorem scanString_escape (acc : List Char) (c : Char) (rest : List Char) :
    scanString ⟨.ok acc, none⟩ (Json.escape c ++ rest) =
      scanString ⟨.ok (c :: acc), none⟩ rest := by
  -- seven characters have an escape of their own, controls are written as units
  unfold Json.escape
  split
  · next h => subst h; rfl
  split
  · next h => subst h; rfl
  split
  · next h => subst h; rfl
  split
  · next h => subst h; rfl
  split
  · next h => subst h; rfl
  split
  · next h => obtain rfl : c = '\x08' := Char.toNat_inj.mp h; rfl
  split
  · next h => obtain rfl : c = '\x0c' := Char.toNat_inj.mp h; rfl
  split
  · next hcontrol =>
    obtain ⟨a, b, d, e, hhex, hread⟩ := @hex4?_hex4 c.toNat (by omega)
    simp [hhex, scanString, hread, pushUnit_control hcontrol]
  · next hquote hbackslash _ _ _ _ _ hcontrol =>
    rw [List.singleton_append, scanString.eq_def]
    simp [hquote, hbackslash, hcontrol, Partial.push, Partial.settled, Except.map]

theorem scanString_flatMap_escape (acc cs rest : List Char) :
    scanString ⟨.ok acc, none⟩ (cs.flatMap Json.escape ++ '"' :: rest) =
      (.ok (String.ofList (acc.reverse ++ cs)), rest) := by
  induction cs generalizing acc with
  | nil =>
    rw [List.flatMap_nil, List.nil_append, scanString.eq_def]
    simp [Partial.close, Partial.settled]
  | cons c cs ih =>
    rw [List.flatMap_cons, List.append_assoc, scanString_escape, ih]
    simp

/-- A string is read back from behind its first quote. -/
theorem scanString_stringChars (s : String) (rest : List Char) :
    ∃ cs, Json.stringChars s ++ rest = '"' :: cs ∧
      scanString .empty cs = (.ok s, rest) := by
  refine ⟨s.toList.flatMap Json.escape ++ '"' :: rest, by simp [Json.stringChars], ?_⟩
  rw [Partial.empty, scanString_flatMap_escape]
  simp

end Document

end Dialogue
