import Mathlib.Algebra.Order.Field.Rat
import Mathlib.Data.List.Induction
import Dialogue.Intent
import Dialogue.Proofs.Decimal.Nearest

/-! The search for the best candidate ends early without changing its result. No score is above a
full one, so the first full score is the first of the greatest, and it reaches every threshold up to
1. -/

namespace Dialogue

open Decimal (Binary64)

attribute [local instance(2000)] instPowNat

namespace Score

def fraction (s : Score) : ℚ := s.matched / s.total

variable {s t : Score} {threshold : Binary64}

theorem total_cast_pos (s : Score) : (0 : ℚ) < s.total := Nat.cast_pos.mpr s.total_pos

theorem fraction_nonneg (s : Score) : 0 ≤ s.fraction :=
  div_nonneg (Nat.cast_nonneg _) (Nat.cast_nonneg _)

theorem fraction_le_one (s : Score) : s.fraction ≤ 1 := by
  rw [fraction, div_le_one₀ s.total_cast_pos, Nat.cast_le]
  exact s.matched_le

theorem isFull_iff : s.isFull = true ↔ s.fraction = 1 := by
  rw [isFull, decide_eq_true_iff, fraction, div_eq_one_iff_eq s.total_cast_pos.ne', Nat.cast_inj]

theorem isBelow_iff : s.isBelow t = true ↔ s.fraction < t.fraction := by
  rw [isBelow, decide_eq_true_iff, fraction, fraction, div_lt_div_iff₀ s.total_cast_pos
    t.total_cast_pos]
  norm_cast

theorem isBelow_of_isFull (hs : s.isFull = false) (ht : t.isFull = true) :
    s.isBelow t = true := by
  rw [isBelow_iff, isFull_iff.mp ht]
  refine lt_of_le_of_ne s.fraction_le_one fun hone => ?_
  rw [isFull_iff.mpr hone] at hs
  cases hs

theorem fraction_le_iff : s.fraction ≤ t.fraction ↔ s.matched * t.total ≤ t.matched * s.total := by
  rw [fraction, fraction, div_le_div_iff₀ s.total_cast_pos t.total_cast_pos]
  norm_cast

theorem reaches_iff : s.reaches threshold = true ↔ threshold.AtMost s.value :=
  threshold.atMostRatio_iff s.total_pos

theorem reaches_of_le (hle : s.fraction ≤ t.fraction) (h : s.reaches threshold = true) :
    t.reaches threshold = true := by
  rw [reaches_iff] at h ⊢
  exact h.trans (Binary64.ofRatio_mono s.total_pos t.total_pos (fraction_le_iff.mp hle))

theorem reaches_of_isFull (hthreshold : threshold.AtMost (.ofInt 1)) (h : s.isFull = true) :
    s.reaches threshold = true := by
  have hone : one.reaches threshold = true := reaches_iff.mpr hthreshold
  refine reaches_of_le ?_ hone
  rw [isFull_iff.mp h]
  exact one.fraction_le_one

/-- Rounded scores of few words compare with a rounded fraction as they do unrounded. -/
theorem ofRatio_atMost_value_iff {p q : Nat} (hq : 0 < q)
    (hone : (Binary64.ofRatio false p q).AtMost (.ofInt 1))
    (hsmall : q * s.total < 2 ^ (52 : Nat)) :
    (Binary64.ofRatio false p q).AtMost s.value ↔ (p : ℚ) / q ≤ s.fraction := by
  rw [fraction, div_le_div_iff₀ (Nat.cast_pos.mpr hq) s.total_cast_pos]
  norm_cast
  exact Binary64.ofRatio_atMost_ofRatio_iff_le hq s.total_pos hone hsmall

/-- Rounded scores of few words compare with each other as they do unrounded. -/
theorem value_atMost_value_iff (hsmall : s.total * t.total < 2 ^ (52 : Nat)) :
    s.value.AtMost t.value ↔ s.fraction ≤ t.fraction :=
  ofRatio_atMost_value_iff s.total_pos
    (Binary64.ofRatio_mono s.total_pos Nat.one_pos (by simpa using s.matched_le)) hsmall

end Score

namespace IntentConfig

/-- One step of a search that goes on to the end: a candidate replaces the best one so far if its
score is above. -/
def better (cfg : IntentConfig) (input : String) (best : Option IntentMatch) (c : Candidate) :
    Option IntentMatch :=
  if best.all fun m => m.score.isBelow (cfg.score input c) then some ⟨c.id, cfg.score input c⟩
  else best

def champion? (cfg : IntentConfig) (input : String) (cs : List Candidate) : Option IntentMatch :=
  cs.foldl (cfg.better input) none

/-- The best of the candidates by a search that goes on to the end. -/
def scan? (cfg : IntentConfig) (input : String) (cs : List Candidate) : Option IntentMatch :=
  (cfg.champion? input cs).filter fun m => m.score.reaches cfg.threshold

/-- The first candidate of the greatest score: those before it score less, those after it no more.
-/
def IsFirstBest (cfg : IntentConfig) (input : String) (cs : List Candidate) (m : IntentMatch) :
    Prop :=
  ∃ before c after, cs = before ++ c :: after ∧ m = ⟨c.id, cfg.score input c⟩ ∧
    (∀ d ∈ before, (cfg.score input d).fraction < (cfg.score input c).fraction) ∧
      ∀ d ∈ after, (cfg.score input d).fraction ≤ (cfg.score input c).fraction

variable {cfg : IntentConfig} {input : String} {cs : List Candidate} {m : IntentMatch}

theorem better_of_all {best : Option IntentMatch} {c : Candidate}
    (h : (best.all fun m => m.score.isBelow (cfg.score input c)) = true) :
    cfg.better input best c = some ⟨c.id, cfg.score input c⟩ := by
  unfold better
  rw [if_pos h]

theorem better_of_not_all {best : Option IntentMatch} {c : Candidate}
    (h : ¬ (best.all fun m => m.score.isBelow (cfg.score input c)) = true) :
    cfg.better input best c = best := by
  unfold better
  rw [if_neg h]

namespace IsFirstBest

theorem exists_mem (h : cfg.IsFirstBest input cs m) :
    ∃ c ∈ cs, m = ⟨c.id, cfg.score input c⟩ := by
  obtain ⟨before, c, after, rfl, hm, -, -⟩ := h
  exact ⟨c, List.mem_append_right _ List.mem_cons_self, hm⟩

theorem fraction_le (h : cfg.IsFirstBest input cs m) {d : Candidate} (hd : d ∈ cs) :
    (cfg.score input d).fraction ≤ m.score.fraction := by
  obtain ⟨before, c, after, rfl, rfl, hbefore, hafter⟩ := h
  dsimp only
  rcases List.mem_append.mp hd with hd | hd
  · exact (hbefore d hd).le
  · rcases List.mem_cons.mp hd with rfl | hd
    · exact le_rfl
    · exact hafter d hd

theorem exists_better (h : cfg.IsFirstBest input cs m) (c : Candidate) :
    ∃ m', cfg.better input (some m) c = some m' ∧ cfg.IsFirstBest input (cs ++ [c]) m' := by
  by_cases hall : ((some m).all fun m => m.score.isBelow (cfg.score input c)) = true
  · have habove := Score.isBelow_iff.mp (Option.all_some.symm.trans hall)
    refine ⟨_, better_of_all hall, cs, c, [], rfl, rfl, fun d hd => ?_, List.forall_mem_nil _⟩
    exact (h.fraction_le hd).trans_lt habove
  · have hlast := not_lt.mp (Score.isBelow_iff.not.mp (Option.all_some ▸ hall))
    refine ⟨m, better_of_not_all hall, ?_⟩
    obtain ⟨before, best, after, rfl, rfl, hbefore, hafter⟩ := h
    dsimp only at hlast
    refine ⟨before, best, after ++ [c], by simp, rfl, hbefore, fun d hd => ?_⟩
    rcases List.mem_append.mp hd with hd | hd
    · exact hafter d hd
    · rw [List.mem_singleton.mp hd]
      exact hlast

end IsFirstBest

theorem champion?_append_singleton (cs : List Candidate) (c : Candidate) :
    cfg.champion? input (cs ++ [c]) = cfg.better input (cfg.champion? input cs) c := by
  simp [champion?]

/-- A search that goes on to the end finds the first candidate of the greatest score. -/
theorem exists_champion? (cfg : IntentConfig) (input : String) (hcs : cs ≠ []) :
    ∃ m, cfg.champion? input cs = some m ∧ cfg.IsFirstBest input cs m := by
  induction cs using List.reverseRecOn with
  | nil => exact absurd rfl hcs
  | append_singleton cs c ih =>
      rw [champion?_append_singleton]
      by_cases hnil : cs = []
      · subst hnil
        refine ⟨_, better_of_all Option.all_none, ?_⟩
        exact ⟨[], c, [], rfl, rfl, List.forall_mem_nil _, List.forall_mem_nil _⟩
      · obtain ⟨m, hm, hbest⟩ := ih hnil
        rw [hm]
        exact hbest.exists_better c

/-- Nothing is above a full score. -/
theorem foldl_better_of_isFull {s : Score} (hfull : s.isFull = true) (id : StepId)
    (cs : List Candidate) : cs.foldl (cfg.better input) (some ⟨id, s⟩) = some ⟨id, s⟩ := by
  induction cs with
  | nil => rfl
  | cons c rest ih =>
      have hnot : ¬ ((some (IntentMatch.mk id s)).all fun m =>
          m.score.isBelow (cfg.score input c)) = true := by
        rw [Option.all_some, Score.isBelow_iff, Score.isFull_iff.mp hfull, not_lt]
        exact Score.fraction_le_one _
      rw [List.foldl_cons, better_of_not_all hnot]
      exact ih

/-- The search that ends at a full score finds what a search to the end does. -/
theorem bestFrom_eq (hthreshold : cfg.threshold.AtMost (.ofInt 1)) {best : Option IntentMatch}
    (hbest : ∀ m ∈ best, m.score.isFull = false) (cs : List Candidate) :
    cfg.bestFrom input best cs =
      (cs.foldl (cfg.better input) best).filter fun m => m.score.reaches cfg.threshold := by
  -- The best one so far is never full: the search would have ended there.
  induction cs generalizing best with
  | nil => rfl
  | cons c rest ih =>
      rw [bestFrom, List.foldl_cons]
      by_cases hfull : (cfg.score input c).isFull = true
      · have hreaches := Score.reaches_of_isFull hthreshold hfull
        have hall : (best.all fun m => m.score.isBelow (cfg.score input c)) = true :=
          (Option.all_eq_true _ _).mpr fun m hm => Score.isBelow_of_isFull (hbest m hm) hfull
        rw [if_pos hfull, better_of_all hall, foldl_better_of_isFull hfull, Option.filter_some,
          if_pos hreaches]
      · rw [if_neg hfull]
        by_cases hall : (best.all fun m => m.score.isBelow (cfg.score input c)) = true
        · rw [if_pos hall, better_of_all hall]
          refine ih fun m hm => ?_
          rw [← Option.mem_some.mp hm]
          dsimp only
          exact Bool.eq_false_iff.mpr hfull
        · rw [if_neg hall, better_of_not_all hall]
          exact ih hbest

/-- Ending at a full score changes nothing. -/
theorem best?_eq_scan? (hthreshold : cfg.threshold.AtMost (.ofInt 1)) (cs : List Candidate) :
    cfg.best? input cs = cfg.scan? input cs :=
  bestFrom_eq hthreshold (fun _ hm => absurd hm (Option.not_mem_none _)) cs

theorem isSome_best?_iff (hthreshold : cfg.threshold.AtMost (.ofInt 1)) :
    (cfg.best? input cs).isSome = true ↔
      ∃ c ∈ cs, (cfg.score input c).reaches cfg.threshold = true := by
  rw [best?_eq_scan? hthreshold, scan?, Option.isSome_filter]
  constructor
  · intro h
    by_cases hcs : cs = []
    · subst hcs
      cases h
    · obtain ⟨m, hm, hbest⟩ := cfg.exists_champion? input hcs
      obtain ⟨c, hc, rfl⟩ := hbest.exists_mem
      rw [hm] at h
      exact ⟨c, hc, h⟩
  · rintro ⟨c, hc, hreaches⟩
    obtain ⟨m, hm, hbest⟩ := cfg.exists_champion? input (List.ne_nil_of_mem hc)
    rw [hm]
    exact Score.reaches_of_le (hbest.fraction_le hc) hreaches

/-- What is found is the first candidate of the greatest score. -/
theorem isFirstBest_of_best? (hthreshold : cfg.threshold.AtMost (.ofInt 1))
    (h : cfg.best? input cs = some m) : cfg.IsFirstBest input cs m := by
  rw [best?_eq_scan? hthreshold, scan?, Option.filter_eq_some_iff] at h
  by_cases hcs : cs = []
  · subst hcs
    cases h.1
  · obtain ⟨m', hm', hbest⟩ := cfg.exists_champion? input hcs
    rw [h.1] at hm'
    cases hm'
    exact hbest

/-- Under a threshold of at most 1, ending at a full score does not change what is found. All scores
are between 0 and 1. A candidate is found just if one has a score that is rounded to the threshold
or more. If the threshold is a fraction that was rounded itself, and the words are few, that is a
score of this fraction or more. What is found is the first candidate of the greatest score, as a
search to the end finds it. -/
theorem early_exit_keeps_winner (cfg : IntentConfig) (hthreshold : cfg.threshold.AtMost (.ofInt 1))
    (input : String) (cs : List Candidate) :
    (∀ c ∈ cs, 0 ≤ (cfg.score input c).fraction ∧ (cfg.score input c).fraction ≤ 1) ∧
      ((cfg.best? input cs).isSome = true ↔
        ∃ c ∈ cs, cfg.threshold.AtMost (cfg.score input c).value) ∧
      (∀ p q : Nat, 0 < q → cfg.threshold = .ofRatio false p q →
        (∀ c ∈ cs, q * (cfg.score input c).total < 2 ^ (52 : Nat)) →
        ((cfg.best? input cs).isSome = true ↔
          ∃ c ∈ cs, (p : ℚ) / q ≤ (cfg.score input c).fraction)) ∧
      (∀ m, cfg.best? input cs = some m → ∃ before c after, cs = before ++ c :: after ∧
        m = ⟨c.id, cfg.score input c⟩ ∧
        (∀ d ∈ before, (cfg.score input d).fraction < (cfg.score input c).fraction) ∧
        ∀ d ∈ after, (cfg.score input d).fraction ≤ (cfg.score input c).fraction) ∧
      cfg.best? input cs = cfg.scan? input cs := by
  have hsome : (cfg.best? input cs).isSome = true ↔
      ∃ c ∈ cs, cfg.threshold.AtMost (cfg.score input c).value := by
    rw [isSome_best?_iff hthreshold]
    simp only [Score.reaches_iff]
  refine ⟨fun c _ => ⟨Score.fraction_nonneg _, Score.fraction_le_one _⟩, hsome, ?_,
    fun m hm => isFirstBest_of_best? hthreshold hm, best?_eq_scan? hthreshold cs⟩
  intro p q hq hratio hsmall
  rw [hsome, hratio]
  rw [hratio] at hthreshold
  exact exists_congr fun c => and_congr_right fun hc =>
    Score.ofRatio_atMost_value_iff hq hthreshold (hsmall c hc)

/-- Two candidates are covered, and the first of them is found. -/
theorem early_exit_keeps_winner_remove :
    let cs : List Candidate :=
      [⟨"ban", "Ban a user", none⟩, ⟨"remove", "Remove a user", none⟩,
        ⟨"drop", "Remove users", none⟩]
    standard.threshold.AtMost (.ofInt 1) ∧
      (standard.best? "remove user" cs).map IntentMatch.id = some "remove" ∧
      standard.best? "remove user" cs = standard.scan? "remove user" cs := by
  intro cs
  have hthreshold : standard.threshold.AtMost (.ofInt 1) :=
    Binary64.ofRatio_mono (by decide) Nat.one_pos (by decide)
  exact ⟨hthreshold, by decide +kernel,
    (early_exit_keeps_winner standard hthreshold "remove user" cs).2.2.2.2⟩

end IntentConfig

end Dialogue
