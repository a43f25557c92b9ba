import Mathlib.Data.List.Induction
import Mathlib.Data.List.Count
import Dialogue.Proofs.Flow.Index

/-! Flows and their graphs. A flow has a graph just if every step has an id of its own, and
otherwise the first step without one says why not. The graph finds by its index what a search
through the flow finds, and gives the flow back as it was. -/

namespace Dialogue

namespace Flow

/-! ### What a flow is refused for -/

/-- Each of the steps has an id, and no two have the same. -/
def HaveOwnIds (steps : List Step) : Prop :=
  (∀ s ∈ steps, s.id ≠ "") ∧ (steps.map Step.id).Nodup

/-- What is wrong with the first step, in order, that has no id or the id of an earlier one. -/
inductive FirstFault : List Step → FlowError → Prop
  | emptyStepId {before after : List Step} {s : Step} (hbefore : HaveOwnIds before)
      (hid : s.id = "") : FirstFault (before ++ s :: after) .emptyStepId
  | duplicateStep {before after : List Step} {s : Step} (hbefore : HaveOwnIds before)
      (hid : s.id ∈ before.map Step.id) : FirstFault (before ++ s :: after) (.duplicateStep s.id)

variable {steps rest : List Step} {seen : List StepId} {s : Step} {e : FlowError}

theorem problemAfter_nil_eq_none_iff : problemAfter [] steps = none ↔ HaveOwnIds steps := by
  simp [problemAfter_eq_none_iff, HaveOwnIds]

theorem haveOwnIds_iff :
    HaveOwnIds steps ↔ ∀ s ∈ steps, s.id ≠ "" ∧ (steps.map Step.id).count s.id ≤ 1 := by
  constructor
  · rintro ⟨hnamed, hnodup⟩ s hs
    exact ⟨hnamed s hs, List.nodup_iff_count_le_one.mp hnodup s.id⟩
  · intro h
    refine ⟨fun s hs => (h s hs).1, List.nodup_iff_count_le_one.mpr fun id => ?_⟩
    by_cases hid : id ∈ steps.map Step.id
    · obtain ⟨s, hs, rfl⟩ := List.mem_map.mp hid
      exact (h s hs).2
    · rw [List.count_eq_zero_of_not_mem hid]
      exact Nat.zero_le 1

theorem not_haveOwnIds_iff :
    ¬ HaveOwnIds steps ↔ ∃ s ∈ steps, s.id = "" ∨ 2 ≤ (steps.map Step.id).count s.id := by
  simp [haveOwnIds_iff, Classical.or_iff_not_imp_left, Nat.succ_le_iff]

/-- The check goes on behind the steps that it lets pass, with their ids among those seen. -/
theorem problemAfter_append :
    problemAfter seen (steps ++ rest) =
      (problemAfter seen steps).or (problemAfter ((steps.map Step.id).reverse ++ seen) rest) := by
  induction steps generalizing seen with
  | nil => rfl
  | cons head tail ih =>
      rw [List.cons_append, problemAfter, problemAfter]
      split
      · rfl
      · split
        · rfl
        · simp [ih]

/-- One more step behind those that have their own ids. -/
theorem problemAfter_concat (h : HaveOwnIds steps) :
    problemAfter [] (steps ++ s :: rest) =
      if s.id = "" then some .emptyStepId
      else if s.id ∈ steps.map Step.id then some (.duplicateStep s.id)
      else problemAfter (s.id :: (steps.map Step.id).reverse) rest := by
  rw [problemAfter_append, problemAfter_nil_eq_none_iff.mpr h]
  simp [problemAfter]

/-- A flow is refused just for the first fault among its steps. -/
theorem problemAfter_nil_eq_some_iff : problemAfter [] steps = some e ↔ FirstFault steps e := by
  constructor
  · -- from the right, because the first fault is known only with all the steps before it
    intro h
    induction steps using List.reverseRecOn with
    | nil => cases h
    | append_singleton before s ih =>
      cases hbefore : problemAfter [] before with
      | some e' =>
        rw [problemAfter_append, hbefore] at h
        cases h
        cases ih hbefore with
        | emptyStepId hown hid => simpa using FirstFault.emptyStepId hown hid
        | duplicateStep hown hid => simpa using FirstFault.duplicateStep hown hid
      | none =>
        have hown := problemAfter_nil_eq_none_iff.mp hbefore
        rw [problemAfter_concat hown] at h
        split at h
        · next hid =>
          cases h
          exact .emptyStepId hown hid
        · split at h
          · next hid =>
            cases h
            exact .duplicateStep hown hid
          · cases h
  · intro h
    cases h with
    | emptyStepId hown hid => rw [problemAfter_concat hown, if_pos hid]
    | duplicateStep hown hid =>
      obtain ⟨t, ht, heq⟩ := List.mem_map.mp hid
      rw [problemAfter_concat hown, if_neg (heq ▸ hown.1 t ht), if_pos hid]

end Flow

namespace FlowGraph

variable {f : Flow} {g : FlowGraph} {e : FlowError} {id : StepId} {s : Step}

/-! ### Building a graph, and reading its flow back -/

theorem ofFlow_eq_error_iff : ofFlow f = .error e ↔ f.problem? = some e := by
  unfold ofFlow
  split
  · next hproblem => simp [hproblem]
  · next hproblem => simp [hproblem]

/-- A flow has a graph just if nothing is wrong with its steps; this graph is the one whose flow it
is. -/
theorem ofFlow_eq_ok_iff : ofFlow f = .ok g ↔ g.flow = f := by
  obtain ⟨flow, sound, index, rfl, exits, rfl⟩ := g
  unfold ofFlow
  split
  · next hproblem =>
    constructor
    · intro h
      cases h
    · rintro rfl
      exact nomatch sound.symm.trans hproblem
  · constructor
    · intro h
      cases h
      rfl
    · rintro rfl
      rfl

theorem flow_of_ofFlow (h : ofFlow f = .ok g) : g.flow = f := ofFlow_eq_ok_iff.mp h

theorem exists_ofFlow (h : f.problem? = none) : ∃ g, ofFlow f = .ok g :=
  ⟨⟨f, h, _, rfl, _, rfl⟩, ofFlow_eq_ok_iff.mpr rfl⟩

/-! ### What a graph finds -/

theorem filter_id_eq_singleton {steps : List Step} (hnodup : (steps.map Step.id).Nodup)
    (hs : s ∈ steps) : steps.filter (fun t => t.id = s.id) = [s] := by
  induction steps with
  | nil => cases hs
  | cons head rest ih =>
      obtain ⟨hfresh, hrest⟩ := List.nodup_cons.mp hnodup
      rcases List.mem_cons.mp hs with rfl | hs
      · have hothers : rest.filter (fun t => t.id = s.id) = [] := by
          apply List.filter_eq_nil_iff.mpr
          intro t ht hid
          exact hfresh (of_decide_eq_true hid ▸ List.mem_map_of_mem ht)
        simp [hothers]
      · have hne : head.id ≠ s.id := fun hid => hfresh (hid ▸ List.mem_map_of_mem hs)
        simp [hne, ih hrest hs]

/-- A step is found by an id just if it is the only one declared with this id. -/
theorem step?_eq_some_iff_filter :
    g.step? id = some s ↔ g.steps.filter (fun t => t.id = id) = [s] := by
  rw [step?_eq_some_iff]
  constructor
  · rintro ⟨hs, rfl⟩
    exact filter_id_eq_singleton g.nodup_ids hs
  · intro h
    have hs : s ∈ g.steps.filter (fun t => t.id = id) := h ▸ List.mem_singleton_self s
    simpa using hs

/-- The graph finds in its index what a search through the flow finds, and has kept the flow. -/
structure IsIndexOf (g : FlowGraph) (f : Flow) : Prop where
  flow_eq : g.flow = f
  step?_eq_some : ∀ id s, g.step? id = some s ↔ f.steps.filter (fun t => t.id = id) = [s]
  step?_eq_none : ∀ id, g.step? id = none ↔ ∀ s ∈ f.steps, s.id ≠ id
  contains_eq_true : ∀ id, g.contains id = true ↔ ∃ s ∈ f.steps, s.id = id
  outgoing_eq : ∀ source, g.outgoing source = f.connections.filter fun c => c.source = source

theorem isIndexOf_flow (g : FlowGraph) : IsIndexOf g g.flow where
  flow_eq := rfl
  step?_eq_some _ _ := step?_eq_some_iff_filter
  step?_eq_none _ := step?_eq_none_iff
  contains_eq_true _ := contains_iff
  outgoing_eq := g.outgoing_eq_filter

/-- A graph agrees with its flow. Building one fails just if some step has an empty id or one that
occurs twice, and then with the error of the first step, in order, at which either happens. If it
succeeds, the graph finds by an id the one step declared with it, or nothing if there is none, and
by a source the connections that leave it, in order; and the graph gives back the flow that it was
built from, as that flow gives the graph. -/
theorem ofFlow_exact (f : Flow) :
    ((∃ e, ofFlow f = .error e) ↔
      ∃ s ∈ f.steps, s.id = "" ∨ 2 ≤ (f.steps.map Step.id).count s.id) ∧
      (∀ e, ofFlow f = .error e ↔ Flow.FirstFault f.steps e) ∧
      (∀ g, ofFlow f = .ok g → IsIndexOf g f) ∧
      ∀ g, ofFlow f = .ok g ↔ g.flow = f := by
  refine ⟨?_, fun e => ?_, fun g hg => ?_, fun g => ofFlow_eq_ok_iff⟩
  · rw [← Flow.not_haveOwnIds_iff, ← Flow.problemAfter_nil_eq_none_iff, ← ne_eq,
      Option.ne_none_iff_exists']
    exact exists_congr fun e => ofFlow_eq_error_iff
  · exact ofFlow_eq_error_iff.trans Flow.problemAfter_nil_eq_some_iff
  · obtain rfl := ofFlow_eq_ok_iff.mp hg
    exact isIndexOf_flow g

example :
    ofFlow ⟨[.start "a", .note "a" "", .note "" ""], []⟩ = .error (.duplicateStep "a") ∧
      ofFlow ⟨[.start "a", .note "" "", .note "a" ""], []⟩ = .error .emptyStepId :=
  ⟨rfl, rfl⟩

end FlowGraph

end Dialogue
