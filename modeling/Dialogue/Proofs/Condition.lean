import Mathlib.Data.List.Find
import Dialogue.Condition
import Dialogue.Flow.Graph

/-! What conditions decide by. A condition asks for the first variable that it needs and lacks. It
looks at variables for their compared values alone, so stores that agree on these decide alike. And
where all branches but the defaults are guarded, the decision does not change once it is made. -/

namespace Dialogue

namespace Branch

/-- Whether the branch looks at a variable, or is a default and looks at nothing. -/
def IsGuarded (b : Branch) : Prop :=
  if b.isDefault then b.guard = none ∧ b.label = none else b.guard.isSome

instance (b : Branch) : Decidable b.IsGuarded := by
  unfold IsGuarded
  infer_instance

end Branch

def FlowGraph.IsGuarded (g : FlowGraph) : Prop :=
  ∀ s ∈ g.steps, ∀ b ∈ s.branches, b.IsGuarded

instance (g : FlowGraph) : Decidable g.IsGuarded :=
  inferInstanceAs (Decidable (∀ s ∈ g.steps, ∀ b ∈ s.branches, b.IsGuarded))

namespace Variables

/-- Whether stores say the same of a variable: neither binds it, or both do, to values that are
equal but for case and for blanks around them. -/
def AgreeAt (vs vs' : Variables) (name : String) : Prop :=
  (vs.value? name).map Text.normalize = (vs'.value? name).map Text.normalize

instance (vs vs' : Variables) (name : String) : Decidable (vs.AgreeAt vs' name) :=
  inferInstanceAs (Decidable (_ = _))

theorem AgreeAt.contains_eq {vs vs' : Variables} {name : String} (h : vs.AgreeAt vs' name) :
    vs'.contains name = vs.contains name := by
  have hbound := congrArg Option.isSome h
  simpa [Variables.contains_eq, value?] using hbound.symm

end Variables

namespace Condition

variable {branches : List Branch} {vs vs' : Variables} {input input' : Option String}

/-- The variables that branches other than defaults depend on, in order. -/
def needed (branches : List Branch) : List String :=
  (branches.filter fun b => !b.isDefault).filterMap Branch.guardName?

def IsFirstMissing (branches : List Branch) (vs : Variables) (name : String) : Prop :=
  ∃ bound later, needed branches = bound ++ name :: later ∧
    (∀ n ∈ bound, vs.contains n = true) ∧ vs.contains name = false

theorem missing?_eq_some_iff {name : String} :
    missing? branches vs = some name ↔ IsFirstMissing branches vs name := by
  rw [missing?, List.find?_eq_some_iff_append, IsFirstMissing, needed]
  constructor
  · rintro ⟨hname, bound, later, hsplit, hbound⟩
    exact ⟨bound, later, hsplit, by simpa using hbound, by simpa using hname⟩
  · rintro ⟨bound, later, hsplit, hbound, hname⟩
    exact ⟨by simpa using hname, bound, later, hsplit, by simpa using hbound⟩

theorem contains_of_missing? {name : String} (h : missing? branches vs = some name) :
    vs.contains name = false := by
  simpa using List.find?_some h

theorem missing?_eq_none_iff : missing? branches vs = none ↔
    ∀ b ∈ branches, b.isDefault = false → ∀ guard, b.guard = some guard →
      vs.contains guard.name = true := by
  unfold missing?
  rw [List.find?_eq_none]
  constructor
  · intro h b hb hdefault guard hguard
    have hname := h guard.name (List.mem_filterMap.mpr
      ⟨b, List.mem_filter.mpr ⟨hb, by simp [hdefault]⟩, by simp [Branch.guardName?, hguard]⟩)
    simpa using hname
  · intro h name hname
    obtain ⟨b, hfilter, hasks⟩ := List.mem_filterMap.mp hname
    obtain ⟨guard, hguard, rfl⟩ := Option.map_eq_some_iff.mp hasks
    obtain ⟨hb, hdefault⟩ := List.mem_filter.mp hfilter
    simp [h b hb (by simpa using hdefault) guard hguard]

theorem missing?_of_resolve {name : String} (h : resolve branches vs input = .missing name) :
    missing? branches vs = some name := by
  unfold resolve at h
  split at h
  · cases h
  · split at h
    · next hmissing =>
      cases h
      exact hmissing
    · split at h <;> cases h

theorem missing?_of_resolve_branch {id : BranchId} (h : resolve branches vs input = .branch id) :
    missing? branches vs = none := by
  unfold resolve at h
  split at h
  · cases h
  · split at h
    · cases h
    · next hmissing => exact hmissing

theorem missing?_of_resolve_noBranches (h : resolve branches vs input = .noBranches) :
    missing? branches vs = none := by
  unfold resolve at h
  split at h
  · next hempty =>
    rw [List.isEmpty_iff.mp hempty]
    rfl
  · split at h
    · cases h
    · next hmissing => exact hmissing

theorem mem_of_fallback? {b : Branch} (h : fallback? branches = some b) : b ∈ branches := by
  rcases Option.or_eq_some_iff.mp h with hdefault | ⟨-, hfirst⟩
  · exact List.mem_of_find?_eq_some hdefault
  · exact List.mem_of_mem_head? hfirst

theorem eq_nil_of_fallback? (h : fallback? branches = none) : branches = [] :=
  List.head?_eq_none_iff.mp (Option.or_eq_none_iff.mp h).2

theorem exists_mem_of_resolve_branch {id : BranchId}
    (h : resolve branches vs input = .branch id) : ∃ b ∈ branches, b.id = id := by
  simp only [resolve, missing?_of_resolve_branch h] at h
  split at h
  · cases h
  · split at h
    · next b hchosen =>
      cases h
      refine ⟨b, ?_, rfl⟩
      rcases Option.or_eq_some_iff.mp hchosen with happlies | ⟨-, hfallback⟩
      · exact List.mem_of_find?_eq_some happlies
      · exact mem_of_fallback? hfallback
    · cases h

theorem eq_nil_of_resolve_noBranches (h : resolve branches vs input = .noBranches) :
    branches = [] := by
  simp only [resolve, missing?_of_resolve_noBranches h] at h
  split at h
  · next hempty => exact List.isEmpty_iff.mp hempty
  · split at h
    · cases h
    · next hchosen => exact eq_nil_of_fallback? (Option.or_eq_none_iff.mp hchosen).2

/-- A decision is made by what is missing and by which branches apply. -/
theorem resolve_eq_of (hmissing : missing? branches vs' = missing? branches vs)
    (happlies : ∀ b ∈ branches, applies vs' (input'.map Text.normalize) b =
      applies vs (input.map Text.normalize) b) :
    resolve branches vs' input' = resolve branches vs input := by
  have hfind := List.find?_congr happlies
  simp only [resolve, hmissing, hfind]

section Agree

variable (hagree : ∀ b ∈ branches, ∀ name ∈ b.guardName?, vs.AgreeAt vs' name)

include hagree

theorem missing?_of_agreeAt : missing? branches vs' = missing? branches vs := by
  unfold missing?
  refine List.find?_congr fun name hname => ?_
  obtain ⟨b, hb, hasks⟩ := List.mem_filterMap.mp hname
  rw [(hagree b (List.mem_filter.mp hb).1 name hasks).contains_eq]

theorem applies_of_agreeAt {b : Branch} (hb : b ∈ branches) (input : Option String) :
    applies vs' input b = applies vs input b := by
  unfold applies actual?
  cases hguard : b.guard with
  | none => rfl
  | some guard =>
      have hvalue := hagree b hb guard.name (by simp [Branch.guardName?, hguard])
      rw [Variables.AgreeAt] at hvalue
      simp only [hvalue]

theorem resolve_of_agreeAt (input : Option String) :
    resolve branches vs' input = resolve branches vs input :=
  resolve_eq_of (missing?_of_agreeAt hagree) fun _ hb => applies_of_agreeAt hagree hb _

end Agree

/-- A guarded branch applies by its variable, whatever else is bound and whatever the input. -/
theorem applies_congr {b : Branch} (hguarded : b.IsGuarded) (input input' : Option String)
    (hsame : b.isDefault = false → ∀ guard, b.guard = some guard →
      vs.contains guard.name = true ∧ vs'.get? guard.name = vs.get? guard.name) :
    applies vs input b = applies vs' input' b := by
  unfold Branch.IsGuarded at hguarded
  split at hguarded
  · simp [applies, expected?, hguarded.1, hguarded.2]
  · next hdefault =>
    obtain ⟨guard, hguard⟩ := Option.isSome_iff_exists.mp hguarded
    obtain ⟨hbound, hget⟩ := hsame (by simpa using hdefault) guard hguard
    obtain ⟨v, hv⟩ := Option.isSome_iff_exists.mp ((vs.contains_eq guard.name).symm.trans hbound)
    simp [applies, expected?, actual?, hguard, Variables.value?, hget, hv]

/-- A decision between guarded branches stays once it is made, whatever else is bound later and
whatever the input. -/
theorem resolve_congr (hguarded : ∀ b ∈ branches, b.IsGuarded)
    (hmissing : missing? branches vs = none)
    (hsame : ∀ name, vs.contains name = true → vs'.get? name = vs.get? name)
    (input input' : Option String) : resolve branches vs' input' = resolve branches vs input := by
  have hbound := missing?_eq_none_iff.mp hmissing
  have hmissing' : missing? branches vs' = none := by
    refine missing?_eq_none_iff.mpr fun b hb hdefault guard hguard => ?_
    have hcontains := hbound b hb hdefault guard hguard
    rw [Variables.contains_eq, hsame _ hcontains, ← Variables.contains_eq, hcontains]
  refine resolve_eq_of (hmissing'.trans hmissing.symm) fun b hb => (applies_congr (hguarded b hb)
    _ _ fun hdefault guard hguard => ?_).symm
  exact ⟨hbound b hb hdefault guard hguard, hsame _ (hbound b hb hdefault guard hguard)⟩

end Condition

end Dialogue
