import Mathlib.Data.List.Nodup
import Dialogue.Flow.Graph

/-! What is looked up in a flow is the one step that has the id, and the connections that leave a
step are those that the flow declares for it, in order. -/

namespace Dialogue

namespace Flow

/-- Steps can be indexed if all of them have ids, new ones, and each its own. -/
theorem problemAfter_eq_none_iff {seen : List StepId} {steps : List Step} :
    problemAfter seen steps = none ↔
      (∀ s ∈ steps, s.id ≠ "" ∧ s.id ∉ seen) ∧ (steps.map Step.id).Nodup := by
  induction steps generalizing seen with
  | nil => simp [problemAfter]
  | cons s rest ih =>
      rw [problemAfter]
      split
      · next hempty => simp [hempty]
      · next hnamed =>
        split
        · next hseen => simp [hseen]
        · next hnew =>
          rw [ih, List.forall_mem_cons, List.map_cons, List.nodup_cons]
          constructor
          · rintro ⟨hrest, hnodup⟩
            have hfresh : s.id ∉ rest.map Step.id := by
              intro hmem
              obtain ⟨t, ht, hid⟩ := List.mem_map.mp hmem
              exact (hrest t ht).2 (hid ▸ List.mem_cons_self)
            refine ⟨⟨⟨hnamed, hnew⟩, fun t ht => ⟨(hrest t ht).1, fun hseen => ?_⟩⟩, hfresh, hnodup⟩
            exact (hrest t ht).2 (List.mem_cons_of_mem _ hseen)
          · rintro ⟨⟨-, hrest⟩, hfresh, hnodup⟩
            refine ⟨fun t ht => ⟨(hrest t ht).1, fun hseen => ?_⟩, hnodup⟩
            rcases List.mem_cons.mp hseen with hid | hseen
            · exact hfresh (hid ▸ List.mem_map_of_mem ht)
            · exact (hrest t ht).2 hseen

theorem problemAfter_of_sublist {seen : List StepId} {steps steps' : List Step}
    (h : problemAfter seen steps = none) (hsub : steps'.Sublist steps) :
    problemAfter seen steps' = none := by
  obtain ⟨hids, hnodup⟩ := problemAfter_eq_none_iff.mp h
  exact problemAfter_eq_none_iff.mpr
    ⟨fun s hs => hids s (hsub.subset hs), hnodup.sublist (hsub.map Step.id)⟩

theorem get?_foldl_insert {steps : List Step} {m : Keyed Step} {id : StepId} {s : Step}
    (h : (steps.foldl (fun m s => m.insert s.id s) m).get? id = some s) :
    (s ∈ steps ∧ s.id = id) ∨ m.get? id = some s := by
  induction steps generalizing m with
  | nil => exact .inr h
  | cons head rest ih =>
      rcases ih h with ⟨hmem, hid⟩ | hm
      · exact .inl ⟨List.mem_cons_of_mem _ hmem, hid⟩
      · rw [Keyed.get?_insert] at hm
        split at hm
        · next hid =>
          cases hm
          exact .inl ⟨List.mem_cons_self, hid⟩
        · exact .inr hm

theorem get?_foldl_exits (connections : List Connection) (m : Keyed (List Connection))
    (source : StepId) :
    ((connections.foldl (fun m c => m.insert c.source ((m.get? c.source).getD [] ++ [c]))
        m).get? source).getD [] =
      (m.get? source).getD [] ++ connections.filter fun c => c.source = source := by
  induction connections generalizing m with
  | nil => simp
  | cons c rest ih =>
      rw [List.foldl_cons, ih, Keyed.get?_insert]
      by_cases h : c.source = source
      · simp [h]
      · simp [h]

theorem isSome_get?_foldl_insert {steps : List Step} {m : Keyed Step} {id : StepId}
    (h : (∃ s ∈ steps, s.id = id) ∨ (m.get? id).isSome = true) :
    ((steps.foldl (fun m s => m.insert s.id s) m).get? id).isSome = true := by
  induction steps generalizing m with
  | nil => simpa using h
  | cons head rest ih =>
      apply ih
      rw [Keyed.get?_insert]
      by_cases hid : head.id = id
      · simp [hid]
      · simpa [hid] using h

end Flow

namespace FlowGraph

def Lacks (g : FlowGraph) (id : StepId) : Prop := ∀ s ∈ g.steps, s.id ≠ id

variable {g : FlowGraph} {id : StepId} {s : Step}

theorem step?_eq_some (h : g.step? id = some s) : s ∈ g.steps ∧ s.id = id := by
  rw [step?, g.index_eq] at h
  rcases Flow.get?_foldl_insert h with hs | hs
  · exact hs
  · cases hs

theorem step?_id (h : g.step? id = some s) : g.step? s.id = some s := by
  rw [(step?_eq_some h).2]
  exact h

theorem contains_of_step? (h : g.step? id = some s) : g.contains id = true :=
  Option.isSome_iff_exists.mpr ⟨s, h⟩

theorem contains_of_mem (h : s ∈ g.steps) : g.contains s.id = true := by
  rw [contains, Keyed.contains, g.index_eq]
  exact Flow.isSome_get?_foldl_insert (.inl ⟨s, h, rfl⟩)

theorem contains_iff : g.contains id = true ↔ ∃ s ∈ g.steps, s.id = id := by
  constructor
  · intro h
    obtain ⟨s, hs⟩ := Option.isSome_iff_exists.mp h
    exact ⟨s, step?_eq_some hs⟩
  · rintro ⟨s, hs, rfl⟩
    exact contains_of_mem hs

theorem contains_eq_false_iff : g.contains id = false ↔ g.Lacks id := by
  rw [← Bool.not_eq_true, contains_iff]
  simp [Lacks]

theorem step?_eq_none_iff : g.step? id = none ↔ g.Lacks id := by
  rw [← contains_eq_false_iff, contains, Keyed.contains, Option.isSome_eq_false_iff,
    Option.isNone_iff_eq_none]
  rfl

theorem nodup_ids (g : FlowGraph) : (g.steps.map Step.id).Nodup :=
  (Flow.problemAfter_eq_none_iff.mp g.sound).2

theorem step?_eq_some_iff : g.step? id = some s ↔ s ∈ g.steps ∧ s.id = id := by
  refine ⟨step?_eq_some, ?_⟩
  rintro ⟨hs, rfl⟩
  obtain ⟨t, ht⟩ := Option.isSome_iff_exists.mp (contains_of_mem hs)
  have hfound : g.step? s.id = some t := ht
  obtain ⟨hmem, hid⟩ := step?_eq_some hfound
  rw [hfound, List.inj_on_of_nodup_map g.nodup_ids hmem hs hid]

theorem contains_of_start? (h : g.start? = some s) : g.contains s.id = true :=
  contains_of_mem (List.mem_of_find?_eq_some h)

theorem outgoing_eq_filter (g : FlowGraph) (source : StepId) :
    g.outgoing source = g.connections.filter fun c => c.source = source := by
  rw [outgoing, g.exits_eq]
  exact Flow.get?_foldl_exits g.connections .empty source

end FlowGraph

end Dialogue
