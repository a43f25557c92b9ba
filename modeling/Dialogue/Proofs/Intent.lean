import Dialogue.Intent

/-! Which candidate is taken among those with a full score. The search ends at the first of them,
and a score is full not only for the label or the trigger phrase itself, but also where every word
that counts is matched. So the candidate that the text names is taken unless one before it is
covered. -/

namespace Dialogue

namespace Text

theorem lowerAfter_eq_nil_iff {before cs : List Char} : lowerAfter before cs = [] ↔ cs = [] := by
  have hchar : ∀ c, lowerChar c ≠ [] := by
    intro c
    unfold lowerChar
    split
    · nofun
    · split <;> nofun
  cases cs with
  | nil => exact iff_of_true rfl rfl
  | cons c rest =>
      refine iff_of_false (fun h => ?_) nofun
      simp only [lowerAfter, List.append_eq_nil_iff] at h
      have himage := h.1
      split at himage
      · split at himage <;> cases himage
      · exact hchar c himage

theorem normalize_eq_empty_iff {s : String} : normalize s = "" ↔ trim s = "" := by
  rw [normalize, lowercase, String.ofList_eq_empty_iff, lowerAfter_eq_nil_iff,
    String.toList_eq_nil_iff]

end Text

namespace IntentConfig

/-- Whether some words of the candidate count and the text matches all of them. -/
def covers (cfg : IntentConfig) (input : String) (c : Candidate) : Bool :=
  let words := Text.words (Text.normalize input)
  let targets := c.targets cfg.minWordLength
  !targets.isEmpty && targets.all fun t => words.any fun w => wordsMatch w t

variable {cfg : IntentConfig} {input : String}

/-- A score is full for a candidate that is named and for one that is covered. -/
theorem isFull_score_iff (cfg : IntentConfig) (hinput : Text.trim input ≠ "") (c : Candidate) :
    (cfg.score input c).isFull = true ↔ c.isNamedBy input = true ∨ cfg.covers input c = true := by
  have hnormal : Text.normalize input ≠ "" := fun h => hinput (Text.normalize_eq_empty_iff.mp h)
  simp only [score, if_neg hnormal]
  split
  · next hnamed => simp [hnamed, Score.isFull, Score.one]
  · next hnamed =>
    split
    · next hnone =>
      simp [hnamed, covers, List.eq_nil_of_length_eq_zero hnone, Score.isFull, Score.zero]
    · next hsome =>
      have hne : c.targets cfg.minWordLength ≠ [] := fun hnil => hsome (congrArg List.length hnil)
      simp [hnamed, covers, hne, Score.isFull, List.countP_eq_length]

/-- The first candidate with a full score ends the search. -/
theorem bestFrom_of_isFull {before after : List Candidate} {c : Candidate}
    (hc : (cfg.score input c).isFull = true)
    (hbefore : ∀ d ∈ before, (cfg.score input d).isFull = false) (best : Option IntentMatch) :
    cfg.bestFrom input best (before ++ c :: after) = some ⟨c.id, cfg.score input c⟩ := by
  induction before generalizing best with
  | nil => simp [bestFrom, hc]
  | cons d rest ih =>
      have hd := hbefore d List.mem_cons_self
      have hrest := ih fun d hd => hbefore d (List.mem_cons_of_mem _ hd)
      simp only [List.cons_append, bestFrom, hd, Bool.false_eq_true, if_false]
      split
      · exact hrest _
      · exact hrest _

/-- Where a candidate is named, the first one named is taken, or the first before it that is
covered. The threshold does not matter. -/
theorem best?_of_isNamedBy (cfg : IntentConfig) {input : String} (hinput : Text.trim input ≠ "")
    {before after : List Candidate} {c : Candidate} (hc : c.isNamedBy input = true)
    (hbefore : ∀ d ∈ before, d.isNamedBy input = false) :
    ∃ m, cfg.best? input (before ++ c :: after) = some m ∧ m.score.isFull = true ∧
      m.id = ((before.find? (cfg.covers input)).getD c).id := by
  have hnotFull : ∀ d ∈ before, cfg.covers input d = false →
      (cfg.score input d).isFull = false := by
    intro d hd hcovers
    rw [Bool.eq_false_iff, Ne, cfg.isFull_score_iff hinput, hbefore d hd, hcovers]
    simp
  cases hfind : before.find? (cfg.covers input) with
  | none =>
      have hcfull := (cfg.isFull_score_iff hinput c).mpr (.inl hc)
      have hfirst : ∀ d ∈ before, (cfg.score input d).isFull = false := fun d hd =>
        hnotFull d hd (Bool.eq_false_iff.mpr (List.find?_eq_none.mp hfind d hd))
      refine ⟨⟨c.id, cfg.score input c⟩, bestFrom_of_isFull hcfull hfirst none, ?_, ?_⟩
      · simpa only using hcfull
      · simp only [Option.getD]
  | some d =>
      obtain ⟨hd, front, back, rfl, hfront⟩ := List.find?_eq_some_iff_append.mp hfind
      have hdfull := (cfg.isFull_score_iff hinput d).mpr (.inr hd)
      have hfirst : ∀ e ∈ front, (cfg.score input e).isFull = false := fun e he =>
        hnotFull e (List.mem_append_left _ he) (by simpa using hfront e he)
      rw [List.append_assoc, List.cons_append]
      refine ⟨⟨d.id, cfg.score input d⟩, bestFrom_of_isFull hdfull hfirst none, ?_, ?_⟩
      · simpa only using hdfull
      · simp only [Option.getD]

/-- A greeting in capitals is found behind another one of which it has no word. -/
theorem best?_of_isNamedBy_greeting :
    let other : Candidate := ⟨"other", "Good morning", none⟩
    let target : Candidate := ⟨"target", "Hello there", none⟩
    ∃ m, standard.best? " HELLO there " [other, target] = some m ∧ m.id = "target" := by
  intro other target
  have hcovered : [other].find? (standard.covers " HELLO there ") = none := by decide +kernel
  obtain ⟨m, hm, -, hid⟩ := @best?_of_isNamedBy standard " HELLO there " (by decide +kernel)
    [other] [] target (by decide +kernel) (by decide +kernel)
  rw [hcovered] at hid
  exact ⟨m, hm, hid⟩

/-- A label that another candidate contains word by word loses to it, though the text is this very
label. -/
theorem named_candidate_loses :
    let other : Candidate := ⟨"other", "zzzz qqqq", none⟩
    let target : Candidate := ⟨"target", "zzz qqq", none⟩
    Score.one.reaches standard.threshold = true ∧ Text.trim "ZZZ QQQ" ≠ "" ∧
      target.isNamedBy "ZZZ QQQ" = true ∧ other.isNamedBy "ZZZ QQQ" = false ∧
      (standard.best? "ZZZ QQQ" [other, target]).map IntentMatch.id = some "other" := by
  decide +kernel

end IntentConfig

end Dialogue
