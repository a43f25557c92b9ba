import Mathlib.Order.Monotone.Basic
import Mathlib.Tactic.Ring
import Dialogue.Decimal.Binary64

/-! Rounding to the nearest value keeps order. A value is at most the one nearest to a fraction
where the fraction is not below the point halfway to the value under it. So fractions are rounded in
their order, and two of small denominators are not rounded to one value. -/

namespace Dialogue.Decimal

attribute [local instance(2000)] instPowNat

/-- A quotient is rounded to `k` or more from the point halfway between `k - 1` and `k`, which is
rounded up if `k` is even. -/
theorem le_roundHalfEven_iff {n d : Nat} (hd : 0 < d) (k : Nat) :
    k ≤ roundHalfEven n d ↔
      if k % 2 = 0 then 2 * (k * d) ≤ 2 * n + d else 2 * (k * d) < 2 * n + d := by
  have hn : n = n / d * d + n % d := (Nat.div_add_mod' n d).symm
  have hr : n % d < d := Nat.mod_lt n hd
  unfold roundHalfEven
  dsimp only
  generalize n / d = q at *
  generalize n % d = r at *
  subst hn
  rcases Nat.lt_trichotomy k (q + 1) with hk | rfl | hk
  · have hle : k * d ≤ q * d := Nat.mul_le_mul_right d (Nat.lt_succ_iff.mp hk)
    split_ifs <;> omega
  · have hsucc : (q + 1) * d = q * d + d := Nat.succ_mul q d
    split_ifs <;> omega
  · have hle : (q + 2) * d ≤ k * d := Nat.mul_le_mul_right d hk
    have hsucc : (q + 2) * d = q * d + 2 * d := Nat.add_mul q 2 d
    split_ifs <;> omega

namespace Binary64

/-! ### Magnitude bits -/

theorem eq_scale_mantissa (b : Nat) : b = scale b * 2 ^ (52 : Nat) + mantissa b := by
  unfold scale mantissa
  split <;> omega

theorem mantissa_lt (b : Nat) : mantissa b < 2 ^ (53 : Nat) := by
  unfold mantissa
  split <;> omega

theorem le_mantissa {b : Nat} (h : 0 < scale b) : 2 ^ (52 : Nat) ≤ mantissa b := by
  unfold scale at h
  unfold mantissa
  split <;> omega

theorem mantissa_pos {b : Nat} (h : 0 < b) : 0 < mantissa b := by
  unfold mantissa
  split <;> omega

/-- The next magnitude has the next mantissa, or else the least one at the next power of two. -/
theorem succ_cases (b : Nat) :
    (scale (b + 1) = scale b ∧ mantissa (b + 1) = mantissa b + 1) ∨
      (scale (b + 1) = scale b + 1 ∧ mantissa (b + 1) = 2 ^ (52 : Nat) ∧
        mantissa b = 2 ^ (53 : Nat) - 1) := by
  unfold scale mantissa
  split <;> split <;> omega

theorem units_strictMono : StrictMono units := by
  refine strictMono_nat_of_lt_succ fun b => ?_
  unfold units
  rcases succ_cases b with ⟨hscale, hmantissa⟩ | ⟨hscale, hmantissa, hlast⟩
  · rw [hscale, hmantissa]
    exact Nat.mul_lt_mul_of_pos_right (Nat.lt_succ_self _) (Nat.two_pow_pos _)
  · rw [hscale, hmantissa, hlast, Nat.pow_succ]
    have hpos := Nat.two_pow_pos (scale b)
    omega

/-! ### Rounded fractions -/

section Rounding

variable {n d : Nat}

/-- The scale of the value nearest to `n / d` units, unless that is a power of two. -/
def binade (n d : Nat) : Nat := Nat.log2 (n / d) - 52

theorem lt_of_binade (n : Nat) (hd : 0 < d) : n < 2 ^ (53 : Nat) * (d * 2 ^ binade n d) := by
  have hlog : n / d < 2 ^ (binade n d + 53) :=
    Nat.lt_of_lt_of_le Nat.lt_log2_self (Nat.pow_le_pow_right Nat.two_pos (by unfold binade; omega))
  calc
    n < 2 ^ (binade n d + 53) * d := (Nat.div_lt_iff_lt_mul hd).mp hlog
    _ = 2 ^ (53 : Nat) * (d * 2 ^ binade n d) := by rw [Nat.pow_add]; ring

theorem le_of_binade (hd : 0 < d) (h : 0 < binade n d) :
    2 ^ (52 : Nat) * (d * 2 ^ binade n d) ≤ n := by
  have hlog : binade n d + 52 = Nat.log2 (n / d) := by
    unfold binade at h ⊢
    omega
  have hne : n / d ≠ 0 := by
    intro hzero
    rw [hzero] at hlog
    simp at hlog
  calc
    2 ^ (52 : Nat) * (d * 2 ^ binade n d) = 2 ^ (binade n d + 52) * d := by rw [Nat.pow_add]; ring
    _ ≤ n := (Nat.le_div_iff_mul_le hd).mp (hlog ▸ Nat.log2_self_le hne)

/-- A fraction of units in the mantissa's last bit is rounded to a mantissa, or to the power of two
after the mantissas. -/
theorem roundHalfEven_binade (n : Nat) (hd : 0 < d) :
    roundHalfEven n (d * 2 ^ binade n d) ≤ 2 ^ (53 : Nat) ∧
      (0 < binade n d → 2 ^ (52 : Nat) ≤ roundHalfEven n (d * 2 ^ binade n d)) := by
  have hpos : 0 < d * 2 ^ binade n d := Nat.mul_pos hd (Nat.two_pow_pos _)
  have hlt := lt_of_binade n hd
  refine ⟨Nat.le_of_lt_succ (Nat.lt_of_not_le fun h => ?_), fun h => ?_⟩
  · rw [Nat.succ_eq_add_one, le_roundHalfEven_iff hpos, if_neg (by decide)] at h
    omega
  · have hle := le_of_binade hd h
    rw [le_roundHalfEven_iff hpos, if_pos (by decide)]
    omega

/-- Magnitude bits of the value nearest to `n / d` units, as if there were no largest one. -/
def nearest (n d : Nat) : Nat :=
  binade n d * 2 ^ (52 : Nat) + roundHalfEven n (d * 2 ^ binade n d)

theorem roundRatio_eq (num den : Nat) :
    roundRatio num den = min infinite (nearest (num * 2 ^ (1074 : Nat)) den) := rfl

theorem roundRatio_le_nearest (num den : Nat) :
    roundRatio num den ≤ nearest (num * 2 ^ (1074 : Nat)) den := Nat.min_le_right _ _

/-- The edge below a magnitude is half a unit of its last bit away, but a quarter below a power of
two. -/
theorem lowEdge_mul {b : Nat} (hb : 0 < b) (x : Nat) :
    lowEdge b * x + (if mantissa b = 2 ^ (52 : Nat) ∧ 0 < scale b then x else 2 * x) =
      4 * (mantissa b * x) := by
  obtain ⟨k, hk⟩ : ∃ k, mantissa b = k + 1 := Nat.exists_eq_add_one.mpr (mantissa_pos hb)
  unfold lowEdge
  split
  · rw [hk, show 4 * (k + 1) - 1 = 4 * k + 3 by omega]
    ring
  · rw [hk, show 4 * (k + 1) - 2 = 4 * k + 2 by omega]
    ring

theorem mul_pow_succ (d s : Nat) : d * 2 ^ (s + 1) = 2 * (d * 2 ^ s) := by
  rw [Nat.pow_succ]
  ring

theorem two_mul_pow_le (d : Nat) {s t : Nat} (h : s < t) : 2 * (d * 2 ^ s) ≤ d * 2 ^ t := by
  rw [← mul_pow_succ]
  exact Nat.mul_le_mul_left d (Nat.pow_le_pow_right Nat.two_pos h)

/-- Whether `n / d` units are not below the edge of the magnitude `b`. The edge itself counts if the
mantissa is even. -/
def Reaches (b n d : Nat) : Prop :=
  if mantissa b % 2 = 0 then lowEdge b * (d * 2 ^ scale b) ≤ 4 * n
  else lowEdge b * (d * 2 ^ scale b) < 4 * n

theorem Reaches.le {b : Nat} (h : Reaches b n d) : lowEdge b * (d * 2 ^ scale b) ≤ 4 * n := by
  unfold Reaches at h
  split at h
  · exact h
  · exact h.le

theorem reaches_of_lt {b : Nat} (h : lowEdge b * (d * 2 ^ scale b) < 4 * n) : Reaches b n d := by
  unfold Reaches
  split
  · exact h.le
  · exact h

/-- Where the last bit of `b` is worth less than that of the nearest value, `b` is the lesser one.
-/
theorem le_nearest_of_scale_lt {b : Nat} (hb : 0 < b) (hd : 0 < d) (h : scale b < binade n d) :
    b ≤ nearest n d ∧ Reaches b n d := by
  have hbits := eq_scale_mantissa b
  have hlast := mantissa_lt b
  have hleast := (roundHalfEven_binade n hd).2 (Nat.zero_lt_of_lt h)
  have habove := le_of_binade hd (Nat.zero_lt_of_lt h)
  have hunits := two_mul_pow_le d h
  have hpos : 0 < d * 2 ^ scale b := Nat.mul_pos hd (Nat.two_pow_pos _)
  have hedge := lowEdge_mul hb (d * 2 ^ scale b)
  have hmantissa : mantissa b * (d * 2 ^ scale b) ≤ 2 ^ (53 : Nat) * (d * 2 ^ scale b) :=
    Nat.mul_le_mul_right _ hlast.le
  refine ⟨?_, reaches_of_lt ?_⟩
  · unfold nearest
    omega
  · split at hedge <;> omega

/-- Where both last bits are worth the same, the mantissas are compared. -/
theorem le_nearest_iff_of_scale_eq {b : Nat} (hb : 0 < b) (hd : 0 < d)
    (h : scale b = binade n d) : b ≤ nearest n d ↔ Reaches b n d := by
  have hpos : 0 < d * 2 ^ binade n d := Nat.mul_pos hd (Nat.two_pow_pos _)
  have hbits := eq_scale_mantissa b
  have hround := le_roundHalfEven_iff (n := n) hpos (mantissa b)
  have hedge := lowEdge_mul hb (d * 2 ^ binade n d)
  have hle : b ≤ nearest n d ↔ mantissa b ≤ roundHalfEven n (d * 2 ^ binade n d) := by
    unfold nearest
    omega
  rw [hle, hround, Reaches, h]
  split at hedge
  · next hpower =>
    -- The quarter below a power of two is not reached from this scale.
    have habove := le_of_binade hd (h ▸ hpower.2)
    rw [hpower.1] at hedge ⊢
    split <;> omega
  · split <;> omega

/-- Where the last bit of `b` is worth more, `b` is greater, unless it is the next power of two. -/
theorem le_nearest_iff_of_lt_scale {b : Nat} (hb : 0 < b) (hd : 0 < d)
    (h : binade n d < scale b) : b ≤ nearest n d ↔ Reaches b n d := by
  have hbits := eq_scale_mantissa b
  have hlead := le_mantissa (Nat.zero_lt_of_lt h)
  have hpos : 0 < d * 2 ^ binade n d := Nat.mul_pos hd (Nat.two_pow_pos _)
  have hedge := lowEdge_mul hb (d * 2 ^ scale b)
  have hunits := mul_pow_succ d (binade n d)
  -- The next power of two is reached by rounding up, from a quarter of its unit below.
  by_cases hnext : mantissa b = 2 ^ (52 : Nat) ∧ scale b = binade n d + 1
  · obtain ⟨hmantissa, hscale⟩ := hnext
    have hround := le_roundHalfEven_iff (n := n) hpos (2 ^ (53 : Nat))
    have hle : b ≤ nearest n d ↔ 2 ^ (53 : Nat) ≤ roundHalfEven n (d * 2 ^ binade n d) := by
      unfold nearest
      omega
    rw [if_pos ⟨hmantissa, Nat.zero_lt_of_lt h⟩, hmantissa, hscale, hunits] at hedge
    rw [hle, hround, Reaches, hmantissa, hscale, hunits, if_pos (by decide), if_pos (by decide)]
    omega
  · have hmost := (roundHalfEven_binade n hd).1
    have hbelow := lt_of_binade n hd
    have hedge_le : 2 ^ (55 : Nat) * (d * 2 ^ binade n d) ≤ lowEdge b * (d * 2 ^ scale b) := by
      rcases Nat.eq_or_lt_of_le (show binade n d + 1 ≤ scale b from h) with hscale | hscale
      · have hmantissa :
            (2 ^ (52 : Nat) + 1) * (d * 2 ^ scale b) ≤ mantissa b * (d * 2 ^ scale b) :=
          Nat.mul_le_mul_right _ (by omega)
        rw [← hscale, hunits] at hmantissa hedge ⊢
        split at hedge <;> omega
      · have hmantissa : 2 ^ (52 : Nat) * (d * 2 ^ scale b) ≤ mantissa b * (d * 2 ^ scale b) :=
          Nat.mul_le_mul_right _ hlead
        have hfour := two_mul_pow_le d hscale
        split at hedge <;> omega
    refine iff_of_false ?_ fun hreaches => ?_
    · unfold nearest
      omega
    · have hle := hreaches.le
      omega

theorem le_nearest_iff {b : Nat} (hb : 0 < b) (hd : 0 < d) : b ≤ nearest n d ↔ Reaches b n d := by
  rcases Nat.lt_trichotomy (scale b) (binade n d) with h | h | h
  · obtain ⟨hle, hreaches⟩ := le_nearest_of_scale_lt hb hd h
    exact iff_of_true hle hreaches
  · exact le_nearest_iff_of_scale_eq hb hd h
  · exact le_nearest_iff_of_lt_scale hb hd h

theorem le_roundRatio_iff {b : Nat} (hb : 0 < b) (hfinite : b ≤ infinite) (hd : 0 < d) :
    b ≤ roundRatio n d ↔ Reaches b (n * 2 ^ (1074 : Nat)) d := by
  rw [roundRatio_eq, Nat.le_min, ← le_nearest_iff hb hd]
  exact and_iff_right hfinite

/-- What reaches an edge is a matter of the fraction alone, and greater fractions do. -/
theorem Reaches.mono {b n' d' : Nat} (h : Reaches b n d) (hd : 0 < d) (hd' : 0 < d')
    (hle : n * d' ≤ n' * d) : Reaches b n' d' := by
  have hscaled : 4 * n * d' ≤ 4 * n' * d := by
    rw [Nat.mul_assoc, Nat.mul_assoc]
    exact Nat.mul_le_mul_left 4 hle
  have hedge : lowEdge b * (d' * 2 ^ scale b) * d = lowEdge b * (d * 2 ^ scale b) * d' := by ring
  unfold Reaches at h ⊢
  split at h
  · next heven =>
    rw [if_pos heven]
    refine Nat.le_of_mul_le_mul_right ?_ hd
    rw [hedge]
    exact (Nat.mul_le_mul_right d' h).trans hscaled
  · next hodd =>
    rw [if_neg hodd]
    refine (Nat.mul_lt_mul_right hd).mp ?_
    rw [hedge]
    exact (Nat.mul_lt_mul_of_pos_right h hd').trans_le hscaled

theorem nearest_mono {n' d' : Nat} (hd : 0 < d) (hd' : 0 < d') (h : n * d' ≤ n' * d) :
    nearest n d ≤ nearest n' d' := by
  rcases Nat.eq_zero_or_pos (nearest n d) with hzero | hpos
  · rw [hzero]
    exact Nat.zero_le _
  · exact (le_nearest_iff hpos hd').mpr (((le_nearest_iff hpos hd).mp le_rfl).mono hd hd' h)

/-- Fractions are rounded in their order. -/
theorem roundRatio_mono {n' d' : Nat} (hd : 0 < d) (hd' : 0 < d') (h : n * d' ≤ n' * d) :
    roundRatio n d ≤ roundRatio n' d' := by
  rw [roundRatio_eq, roundRatio_eq]
  refine min_le_min_left _ (nearest_mono hd hd' ?_)
  calc
    n * 2 ^ (1074 : Nat) * d' = n * d' * 2 ^ (1074 : Nat) := Nat.mul_right_comm _ _ _
    _ ≤ n' * d * 2 ^ (1074 : Nat) := Nat.mul_le_mul_right _ h
    _ = n' * 2 ^ (1074 : Nat) * d := Nat.mul_right_comm _ _ _

/-- From edge to edge it is at most a unit of the last bit. -/
theorem lowEdge_succ_le (b : Nat) :
    lowEdge (b + 1) * 2 ^ scale (b + 1) ≤ (lowEdge b + 4) * 2 ^ scale b := by
  rcases succ_cases b with ⟨hscale, hmantissa⟩ | ⟨hscale, hmantissa, hlast⟩
  · rw [hscale]
    have hlead : 0 < scale b → 2 ^ (52 : Nat) ≤ mantissa b := le_mantissa
    refine Nat.mul_le_mul_right _ ?_
    unfold lowEdge
    rw [hscale, hmantissa]
    split <;> split <;> omega
  · have hedge : lowEdge (b + 1) = 2 ^ (54 : Nat) - 1 := by
      unfold lowEdge
      rw [hscale, hmantissa, if_pos ⟨rfl, Nat.succ_pos _⟩]
    have hlower : lowEdge b + 4 = 2 * (2 ^ (54 : Nat) - 1) := by
      unfold lowEdge
      rw [hlast, if_neg fun h => absurd h.1 (by decide)]
    rw [hedge, hlower, hscale, mul_pow_succ, Nat.mul_assoc]

/-- A fraction that is not rounded to more than another one is above it by a unit of its last bit at
most. -/
theorem le_add_of_nearest_le {n' d' : Nat} (hd : 0 < d) (hd' : 0 < d')
    (h : nearest n d ≤ nearest n' d') :
    n * d' ≤ n' * d + d * d' * 2 ^ scale (nearest n d) := by
  have habove : 4 * n ≤ lowEdge (nearest n d + 1) * (d * 2 ^ scale (nearest n d + 1)) := by
    refine Nat.le_of_not_lt fun hlt => Nat.not_succ_le_self (nearest n d) ?_
    exact (le_nearest_iff (Nat.succ_pos _) hd).mpr (reaches_of_lt hlt)
  have hbelow : lowEdge (nearest n d) * (d' * 2 ^ scale (nearest n d)) ≤ 4 * n' := by
    rcases Nat.eq_zero_or_pos (nearest n d) with hzero | hpos
    · rw [hzero, show lowEdge 0 = 0 from rfl, Nat.zero_mul]
      exact Nat.zero_le _
    · exact ((le_nearest_iff hpos hd').mp h).le
  have hsucc := lowEdge_succ_le (nearest n d)
  generalize nearest n d = b at *
  refine (Nat.mul_le_mul_left_iff (Nat.succ_pos 3)).mp ?_
  calc
    4 * (n * d') = 4 * n * d' := (Nat.mul_assoc _ _ _).symm
    _ ≤ lowEdge (b + 1) * (d * 2 ^ scale (b + 1)) * d' := Nat.mul_le_mul_right d' habove
    _ = lowEdge (b + 1) * 2 ^ scale (b + 1) * (d * d') := by ring
    _ ≤ (lowEdge b + 4) * 2 ^ scale b * (d * d') := Nat.mul_le_mul_right _ hsucc
    _ = lowEdge b * (d' * 2 ^ scale b) * d + 4 * (d * d' * 2 ^ scale b) := by ring
    _ ≤ 4 * n' * d + 4 * (d * d' * 2 ^ scale b) :=
      Nat.add_le_add_right (Nat.mul_le_mul_right d hbelow) _
    _ = 4 * (n' * d + d * d' * 2 ^ scale b) := by ring

/-- Fractions of small denominators are not rounded together: up to 1 they are further apart than a
unit of the last bit. -/
theorem le_of_roundRatio_le {n' d' : Nat} (hd : 0 < d) (hd' : 0 < d')
    (hone : roundRatio n d ≤ 1023 * 2 ^ (52 : Nat)) (hsmall : d * d' < 2 ^ (52 : Nat))
    (h : roundRatio n d ≤ roundRatio n' d') : n * d' ≤ n' * d := by
  have hnearest : roundRatio n d = nearest (n * 2 ^ (1074 : Nat)) d := by
    have hlarge : 1023 * 2 ^ (52 : Nat) < infinite := by decide
    have hmin := roundRatio_eq n d
    generalize nearest (n * 2 ^ (1074 : Nat)) d = b at hmin ⊢
    omega
  have hle : nearest (n * 2 ^ (1074 : Nat)) d ≤ nearest (n' * 2 ^ (1074 : Nat)) d' :=
    (Nat.le_of_eq hnearest.symm).trans (h.trans (roundRatio_le_nearest n' d'))
  have hgap := le_add_of_nearest_le hd hd' hle
  have hscale : scale (nearest (n * 2 ^ (1074 : Nat)) d) ≤ 1022 := by
    rw [← hnearest]
    unfold scale
    omega
  have hunit := Nat.pow_le_pow_right Nat.two_pos hscale
  by_contra hlt
  have hpow : 2 ^ (1074 : Nat) = 2 ^ (52 : Nat) * 2 ^ (1022 : Nat) := by decide +kernel
  have hpos : 0 < 2 ^ (1022 : Nat) := Nat.two_pow_pos 1022
  generalize 2 ^ scale (nearest (n * 2 ^ (1074 : Nat)) d) = unit at *
  generalize 2 ^ (1074 : Nat) = whole at *
  generalize 2 ^ (1022 : Nat) = most at *
  have hapart : (n' * d + 1) * whole ≤ n' * d * whole + d * d' * most :=
    calc
      (n' * d + 1) * whole ≤ n * d' * whole := Nat.mul_le_mul_right whole (Nat.lt_of_not_le hlt)
      _ = n * whole * d' := Nat.mul_right_comm _ _ _
      _ ≤ n' * whole * d + d * d' * unit := hgap
      _ ≤ n' * whole * d + d * d' * most := Nat.add_le_add_left (Nat.mul_le_mul_left _ hunit) _
      _ = n' * d * whole + d * d' * most := by rw [Nat.mul_right_comm]
  rw [Nat.succ_mul, hpow] at hapart
  have hmost : 2 ^ (52 : Nat) * most ≤ d * d' * most := Nat.le_of_add_le_add_left hapart
  exact absurd (Nat.le_of_mul_le_mul_right hmost hpos) (Nat.not_le_of_lt hsmall)

end Rounding

/-! ### The order of values -/

/-- What a value is worth, in units of `2 ^ -1074`. Infinity is worth the power of two after the
greatest finite value. -/
def worth (x : Binary64) : Int :=
  if x.negative then -(units x.magnitude : Int) else units x.magnitude

/-- The order of values, which a NaN is not in. -/
def AtMost (x y : Binary64) : Prop :=
  x.isNaN = false ∧ y.isNaN = false ∧ x.worth ≤ y.worth

section Fractions

variable {n d n' d' : Nat}

theorem roundRatio_lt (n d : Nat) : roundRatio n d < 2 ^ (63 : Nat) :=
  Nat.lt_of_le_of_lt (Nat.min_le_left _ _) (by decide)

theorem toNat_bits_ofRatio (n d : Nat) : (ofRatio false n d).bits.toNat = roundRatio n d := by
  have hlt := roundRatio_lt n d
  unfold ofRatio ofMagnitude
  rw [if_neg Bool.false_ne_true, UInt64.toNat_ofNat', Nat.mod_eq_of_lt (by omega)]

theorem magnitude_ofRatio (n d : Nat) : (ofRatio false n d).magnitude = roundRatio n d := by
  rw [magnitude, toNat_bits_ofRatio, Nat.mod_eq_of_lt (roundRatio_lt n d)]

theorem isNaN_ofRatio (n d : Nat) : (ofRatio false n d).isNaN = false := by
  rw [isNaN, magnitude_ofRatio, decide_eq_false_iff_not, Nat.not_lt]
  exact Nat.min_le_left _ _

theorem worth_ofRatio (n d : Nat) : (ofRatio false n d).worth = units (roundRatio n d) := by
  have hlt := roundRatio_lt n d
  have hpositive : (ofRatio false n d).negative = false := by
    rw [negative, toNat_bits_ofRatio, decide_eq_false_iff_not]
    omega
  rw [worth, hpositive, if_neg Bool.false_ne_true, magnitude_ofRatio]

theorem ofRatio_atMost_ofRatio_iff :
    (ofRatio false n d).AtMost (ofRatio false n' d') ↔ roundRatio n d ≤ roundRatio n' d' := by
  unfold AtMost
  rw [isNaN_ofRatio, isNaN_ofRatio, worth_ofRatio, worth_ofRatio, Int.ofNat_le,
    units_strictMono.le_iff_le]
  exact ⟨fun h => h.2.2, fun h => ⟨rfl, rfl, h⟩⟩

theorem mul_two_pow_1076 (n : Nat) : n * 2 ^ (1076 : Nat) = 4 * (n * 2 ^ (1074 : Nat)) := by
  have hpow : 2 ^ (1076 : Nat) = 4 * 2 ^ (1074 : Nat) := by decide +kernel
  generalize 2 ^ (1074 : Nat) = k at hpow ⊢
  rw [hpow, Nat.mul_left_comm]

/-- The comparison with a rounded fraction is the comparison with the value nearest to it. -/
theorem atMostRatio_iff (x : Binary64) (hd : 0 < d) :
    x.atMostRatio n d = true ↔ x.AtMost (ofRatio false n d) := by
  cases hnan : x.isNaN with
  | true => simp [AtMost, atMostRatio, hnan]
  | false =>
      have hatMost : x.AtMost (ofRatio false n d) ↔ x.worth ≤ units (roundRatio n d) := by
        rw [AtMost, isNaN_ofRatio, worth_ofRatio]
        exact ⟨fun h => h.2.2, fun h => ⟨hnan, rfl, h⟩⟩
      have hunits : (0 : Int) ≤ units (roundRatio n d) := Int.natCast_nonneg _
      rw [hatMost, atMostRatio, hnan, if_neg Bool.false_ne_true]
      cases hsign : x.negative with
      | true =>
          have hworth : x.worth ≤ 0 := by
            rw [worth, hsign, if_pos rfl]
            omega
          exact iff_of_true rfl (hworth.trans hunits)
      | false =>
          have hworth : x.worth = units x.magnitude := by
            rw [worth, hsign, if_neg Bool.false_ne_true]
          rcases Nat.eq_zero_or_pos x.magnitude with hzero | hpos
          · rw [hworth, hzero]
            exact iff_of_true rfl hunits
          · have hfinite : x.magnitude ≤ infinite := by
              rwa [isNaN, decide_eq_false_iff_not, Nat.not_lt] at hnan
            rw [hworth, Int.ofNat_le, units_strictMono.le_iff_le,
              le_roundRatio_iff hpos hfinite hd, Reaches, Bool.false_or,
              if_neg fun h => hpos.ne' (eq_of_beq h)]
            dsimp only
            rw [mul_two_pow_1076, Nat.mul_assoc, Nat.mul_comm (2 ^ _) d]
            split
            · exact decide_eq_true_iff
            · exact decide_eq_true_iff

theorem AtMost.trans {x y z : Binary64} (h : x.AtMost y) (h' : y.AtMost z) : x.AtMost z :=
  ⟨h.1, h'.2.1, h.2.2.trans h'.2.2⟩

theorem ofRatio_mono (hd : 0 < d) (hd' : 0 < d') (h : n * d' ≤ n' * d) :
    (ofRatio false n d).AtMost (ofRatio false n' d') :=
  ofRatio_atMost_ofRatio_iff.mpr (roundRatio_mono hd hd' h)

theorem roundRatio_one : roundRatio 1 1 = 1023 * 2 ^ (52 : Nat) := by decide +kernel

theorem ofRatio_atMost_ofRatio_iff_le (hd : 0 < d) (hd' : 0 < d')
    (hone : (ofRatio false n d).AtMost (ofInt 1)) (hsmall : d * d' < 2 ^ (52 : Nat)) :
    (ofRatio false n d).AtMost (ofRatio false n' d') ↔ n * d' ≤ n' * d := by
  have hbits : roundRatio n d ≤ 1023 * 2 ^ (52 : Nat) :=
    (ofRatio_atMost_ofRatio_iff.mp hone).trans_eq roundRatio_one
  refine ⟨fun h => ?_, ofRatio_mono hd hd'⟩
  exact le_of_roundRatio_le hd hd' hbits hsmall (ofRatio_atMost_ofRatio_iff.mp h)

end Fractions

end Binary64

end Dialogue.Decimal
