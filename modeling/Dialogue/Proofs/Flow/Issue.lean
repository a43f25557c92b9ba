import Dialogue.Flow.Issue
import Dialogue.Proofs.Flow.Index

/-! What the list of issues tells. An issue is listed just if the flow has the fault that it tells
of, and it tells as well where in the flow it was found, so that none is listed twice. A flow
without issues has one start, connections between its own steps, and conditions that can decide. -/

namespace Dialogue

namespace FlowGraph

def startIds (g : FlowGraph) : List StepId := (g.steps.filter Step.isStart).map Step.id

def Connects (g : FlowGraph) (source target : StepId) : Prop :=
  ∃ c ∈ g.connections, c.source = source ∧ c.target = target

end FlowGraph

namespace Issue

/-- Whether a flow has the fault that the issue tells of. -/
def IsOf (g : FlowGraph) : Issue → Prop
  | missingStart => ∀ s ∈ g.steps, s.isStart = false
  | multipleStarts ids => ids = g.startIds ∧ 2 ≤ ids.length
  | unknownSource source target => g.Connects source target ∧ g.Lacks source
  | danglingConnection source target => g.Connects source target ∧ g.Lacks target
  | multipleDefaults id =>
    ∃ branches, .condition id branches ∈ g.steps ∧ 1 < branches.countP Branch.isDefault
  | emptyCondition id => .condition id [] ∈ g.steps

def ends? : Issue → Option (StepId × StepId)
  | unknownSource source target | danglingConnection source target => some (source, target)
  | _ => none

def condition? : Issue → Option StepId
  | multipleDefaults step | emptyCondition step => some step
  | _ => none

end Issue

namespace FlowGraph

variable {g : FlowGraph} {i : Issue} {id source target : StepId}

/-! ### What each rule finds -/

theorem startIds_eq_nil_iff : g.startIds = [] ↔ ∀ s ∈ g.steps, s.isStart = false := by
  simp [startIds]

theorem mem_startIssues_iff :
    i ∈ g.startIssues ↔
      i = .missingStart ∧ g.startIds = [] ∨
        i = .multipleStarts g.startIds ∧ 2 ≤ g.startIds.length := by
  unfold startIssues
  rw [← startIds]
  rcases g.startIds with _ | ⟨a, _ | ⟨b, rest⟩⟩ <;> simp

theorem mem_endIssues_iff {c : Connection} :
    i ∈ g.endIssues c ↔
      i = .unknownSource c.source c.target ∧ g.Lacks c.source ∨
        i = .danglingConnection c.source c.target ∧ g.Lacks c.target := by
  rw [← contains_eq_false_iff, ← contains_eq_false_iff]
  cases hs : g.contains c.source <;> cases ht : g.contains c.target <;> simp [endIssues, hs, ht]

/-- What is passed over has been looked at before, at a connection with the same ends. -/
theorem mem_connectionIssues_iff {seen : List (StepId × StepId)} {connections : List Connection} :
    i ∈ g.connectionIssues seen connections ↔
      ∃ c ∈ connections, (c.source, c.target) ∉ seen ∧ i ∈ g.endIssues c := by
  induction connections generalizing seen with
  | nil => simp [connectionIssues]
  | cons c rest ih =>
      rw [connectionIssues, List.exists_mem_cons_iff]
      by_cases hc : (c.source, c.target) ∈ seen
      · rw [if_pos hc, ih]
        simp [hc]
      · rw [if_neg hc, List.mem_append, ih]
        constructor
        · rintro (hi | ⟨d, hd, hnew, hi⟩)
          · exact .inl ⟨hc, hi⟩
          · exact .inr ⟨d, hd, fun hseen => hnew (List.mem_cons_of_mem _ hseen), hi⟩
        · rintro (⟨-, hi⟩ | ⟨d, hd, hnew, hi⟩)
          · exact .inl hi
          · by_cases hsame : (d.source, d.target) = (c.source, c.target)
            · obtain ⟨hs, ht⟩ := Prod.mk.inj hsame
              left
              rwa [mem_endIssues_iff, ← hs, ← ht, ← mem_endIssues_iff]
            · exact .inr ⟨d, hd, List.not_mem_cons_of_ne_of_not_mem hsame hnew, hi⟩

theorem mem_branchIssues_iff {s : Step} :
    i ∈ branchIssues s ↔ ∃ id branches, s = .condition id branches ∧
      (i = .emptyCondition id ∧ branches = [] ∨
        i = .multipleDefaults id ∧ 1 < branches.countP Branch.isDefault) := by
  cases s with
  | condition id branches =>
      cases branches with
      | nil => simp [branchIssues]
      | cons b rest =>
          by_cases hmany : 1 < (b :: rest).countP Branch.isDefault <;>
            simp [branchIssues, hmany]
  | _ => simp [branchIssues]

/-- What holds of the ends of some connection with these ends holds of these. -/
theorem connects_and_iff {p : StepId → StepId → Prop} :
    g.Connects source target ∧ p source target ↔
      ∃ c ∈ g.connections, (source = c.source ∧ target = c.target) ∧ p c.source c.target := by
  constructor
  · rintro ⟨⟨c, hc, rfl, rfl⟩, hp⟩
    exact ⟨c, hc, ⟨rfl, rfl⟩, hp⟩
  · rintro ⟨c, hc, ⟨rfl, rfl⟩, hp⟩
    exact ⟨⟨c, hc, rfl, rfl⟩, hp⟩

/-- An issue is listed just if the flow has the fault that it tells of. -/
theorem mem_validate_iff : i ∈ g.validate ↔ i.IsOf g := by
  simp only [validate, List.mem_append, List.mem_flatMap, mem_startIssues_iff,
    mem_connectionIssues_iff, mem_endIssues_iff, mem_branchIssues_iff, List.not_mem_nil,
    not_false_eq_true, true_and]
  cases i with
  | missingStart => simp [Issue.IsOf, startIds_eq_nil_iff]
  | multipleStarts ids =>
      suffices h : ids = g.startIds → (2 ≤ g.startIds.length ↔ 2 ≤ ids.length) by
        simpa [Issue.IsOf] using h
      rintro rfl
      rfl
  | unknownSource source target =>
      simp [Issue.IsOf, connects_and_iff (p := fun source _ => g.Lacks source)]
  | danglingConnection source target =>
      simp [Issue.IsOf, connects_and_iff (p := fun _ target => g.Lacks target)]
  | multipleDefaults id => simp [Issue.IsOf]
  | emptyCondition id => simp [Issue.IsOf]

/-! ### No issue twice -/

theorem places_of_mem_startIssues (h : i ∈ g.startIssues) :
    i.ends? = none ∧ i.condition? = none := by
  rcases mem_startIssues_iff.mp h with ⟨rfl, -⟩ | ⟨rfl, -⟩
  · exact ⟨rfl, rfl⟩
  · exact ⟨rfl, rfl⟩

theorem condition?_of_mem_endIssues {c : Connection} (h : i ∈ g.endIssues c) :
    i.condition? = none := by
  rcases mem_endIssues_iff.mp h with ⟨rfl, -⟩ | ⟨rfl, -⟩
  · rfl
  · rfl

theorem ends?_of_mem_endIssues {c : Connection} (h : i ∈ g.endIssues c) :
    i.ends? = some (c.source, c.target) := by
  rcases mem_endIssues_iff.mp h with ⟨rfl, -⟩ | ⟨rfl, -⟩
  · rfl
  · rfl

theorem condition?_of_mem_branchIssues {s : Step} (h : i ∈ branchIssues s) :
    i.condition? = some s.id := by
  obtain ⟨id, branches, rfl, ⟨rfl, -⟩ | ⟨rfl, -⟩⟩ := mem_branchIssues_iff.mp h
  · rfl
  · rfl

theorem nodup_startIssues (g : FlowGraph) : g.startIssues.Nodup := by
  unfold startIssues
  split <;> simp

theorem nodup_endIssues (g : FlowGraph) (c : Connection) : (g.endIssues c).Nodup := by
  unfold endIssues
  split <;> split <;> simp

theorem nodup_connectionIssues (g : FlowGraph) (seen : List (StepId × StepId))
    (connections : List Connection) : (g.connectionIssues seen connections).Nodup := by
  induction connections generalizing seen with
  | nil => exact List.nodup_nil
  | cons c rest ih =>
      rw [connectionIssues]
      by_cases hc : (c.source, c.target) ∈ seen
      · rw [if_pos hc]
        exact ih seen
      · rw [if_neg hc]
        refine List.nodup_append.mpr ⟨g.nodup_endIssues c, ih _, ?_⟩
        rintro i hi _ hrest rfl
        obtain ⟨d, -, hnew, hi'⟩ := mem_connectionIssues_iff.mp hrest
        have hsame := (ends?_of_mem_endIssues hi').symm.trans (ends?_of_mem_endIssues hi)
        exact hnew (Option.some.inj hsame ▸ List.mem_cons_self)

theorem nodup_branchIssues (s : Step) : (branchIssues s).Nodup := by
  unfold branchIssues
  split
  · split
    · simp
    · split <;> simp
  · simp

/-- Different conditions have different issues, for they have different ids. -/
theorem nodup_flatMap_branchIssues (g : FlowGraph) : (g.steps.flatMap branchIssues).Nodup := by
  refine List.nodup_flatMap.mpr ⟨fun s _ => nodup_branchIssues s, ?_⟩
  refine (List.pairwise_map.mp g.nodup_ids).imp fun {s t} hids => ?_
  intro i hs ht
  have hsame := (condition?_of_mem_branchIssues hs).symm.trans (condition?_of_mem_branchIssues ht)
  exact hids (Option.some.inj hsame)

theorem nodup_validate (g : FlowGraph) : g.validate.Nodup := by
  -- what an issue tells of where it was found sets the three rules apart
  refine List.nodup_append.mpr ⟨List.nodup_append.mpr ⟨g.nodup_startIssues,
    g.nodup_connectionIssues [] g.connections, ?_⟩, g.nodup_flatMap_branchIssues, ?_⟩
  · rintro i hstart _ hconnection rfl
    obtain ⟨c, -, -, hc⟩ := mem_connectionIssues_iff.mp hconnection
    cases (places_of_mem_startIssues hstart).1.symm.trans (ends?_of_mem_endIssues hc)
  · rintro i hearlier _ hbranch rfl
    obtain ⟨s, -, hs⟩ := List.mem_flatMap.mp hbranch
    have hcondition := condition?_of_mem_branchIssues hs
    rcases List.mem_append.mp hearlier with hstart | hconnection
    · cases (places_of_mem_startIssues hstart).2.symm.trans hcondition
    · obtain ⟨c, -, -, hc⟩ := mem_connectionIssues_iff.mp hconnection
      cases (condition?_of_mem_endIssues hc).symm.trans hcondition

/-! ### No issue at all -/

/-- Whether a flow meets all the rules: it has one start, its connections join steps of it, and its
conditions have branches, of which one at most is a default. -/
structure IsFaultless (g : FlowGraph) : Prop where
  start : ∃ s, g.steps.filter Step.isStart = [s]
  ends : ∀ c ∈ g.connections, (∃ s ∈ g.steps, s.id = c.source) ∧ ∃ s ∈ g.steps, s.id = c.target
  branches : ∀ id branches, .condition id branches ∈ g.steps →
    branches ≠ [] ∧ branches.countP Branch.isDefault ≤ 1

theorem IsFaultless.not_isOf (h : g.IsFaultless) (i : Issue) : ¬ i.IsOf g := by
  obtain ⟨start, hstart⟩ := h.start
  intro hi
  cases i with
  | missingStart =>
      have hmem : start ∈ g.steps.filter Step.isStart := hstart ▸ List.mem_singleton_self start
      obtain ⟨hstep, hkind⟩ := List.mem_filter.mp hmem
      exact Bool.false_ne_true ((hi start hstep).symm.trans hkind)
  | multipleStarts ids =>
      obtain ⟨rfl, htwo⟩ := hi
      simp [startIds, hstart] at htwo
  | unknownSource source target =>
      obtain ⟨⟨c, hc, rfl, rfl⟩, hlacks⟩ := hi
      obtain ⟨s, hs, hid⟩ := (h.ends c hc).1
      exact hlacks s hs hid
  | danglingConnection source target =>
      obtain ⟨⟨c, hc, rfl, rfl⟩, hlacks⟩ := hi
      obtain ⟨s, hs, hid⟩ := (h.ends c hc).2
      exact hlacks s hs hid
  | multipleDefaults id =>
      obtain ⟨branches, hs, hmany⟩ := hi
      exact absurd hmany (Nat.not_lt.mpr (h.branches id branches hs).2)
  | emptyCondition id => exact (h.branches id [] hi).1 rfl

theorem isFaultless_of_not_isOf (h : ∀ i : Issue, ¬ i.IsOf g) : g.IsFaultless where
  start := by
    have hsome : g.startIds ≠ [] := fun hnil => h .missingStart (startIds_eq_nil_iff.mp hnil)
    have hfew : ¬ 2 ≤ g.startIds.length := fun htwo => h (.multipleStarts g.startIds) ⟨rfl, htwo⟩
    have hpos := List.length_pos_iff.mpr hsome
    have hone : (g.steps.filter Step.isStart).length = 1 := by
      rw [← List.length_map Step.id]
      change g.startIds.length = 1
      omega
    exact List.length_eq_one_iff.mp hone
  ends := by
    intro c hc
    constructor
    · by_contra hnone
      exact h (.unknownSource c.source c.target)
        ⟨⟨c, hc, rfl, rfl⟩, fun s hs hid => hnone ⟨s, hs, hid⟩⟩
    · by_contra hnone
      exact h (.danglingConnection c.source c.target)
        ⟨⟨c, hc, rfl, rfl⟩, fun s hs hid => hnone ⟨s, hs, hid⟩⟩
  branches := by
    intro id branches hs
    constructor
    · rintro rfl
      exact h (.emptyCondition id) hs
    · by_contra hmany
      exact h (.multipleDefaults id) ⟨branches, hs, Nat.lt_of_not_le hmany⟩

theorem validate_eq_nil_iff : g.validate = [] ↔ g.IsFaultless := by
  constructor
  · intro h
    refine isFaultless_of_not_isOf fun i hi => ?_
    have hlisted := mem_validate_iff.mpr hi
    rw [h] at hlisted
    cases hlisted
  · intro h
    rw [List.eq_nil_iff_forall_not_mem]
    exact fun i hi => h.not_isOf i (mem_validate_iff.mp hi)

/-- Validation is exact: it lists no issue twice, each kind of issue just where the flow has the
fault that it is about, and nothing just for a flow with one start, whose connections join steps of
it and whose conditions have branches with one default at most. -/
theorem validate_exact (g : FlowGraph) :
    g.validate.Nodup ∧
      (.missingStart ∈ g.validate ↔ ∀ s ∈ g.steps, s.isStart = false) ∧
      (∀ ids, .multipleStarts ids ∈ g.validate ↔
        ids = (g.steps.filter Step.isStart).map Step.id ∧ 2 ≤ ids.length) ∧
      (∀ source target, .unknownSource source target ∈ g.validate ↔
        (∃ c ∈ g.connections, c.source = source ∧ c.target = target) ∧
          ∀ s ∈ g.steps, s.id ≠ source) ∧
      (∀ source target, .danglingConnection source target ∈ g.validate ↔
        (∃ c ∈ g.connections, c.source = source ∧ c.target = target) ∧
          ∀ s ∈ g.steps, s.id ≠ target) ∧
      (∀ id, .emptyCondition id ∈ g.validate ↔ .condition id [] ∈ g.steps) ∧
      (∀ id, .multipleDefaults id ∈ g.validate ↔
        ∃ branches, .condition id branches ∈ g.steps ∧ 1 < branches.countP Branch.isDefault) ∧
      (g.validate = [] ↔
        (∃ s, g.steps.filter Step.isStart = [s]) ∧
          (∀ c ∈ g.connections,
            (∃ s ∈ g.steps, s.id = c.source) ∧ ∃ s ∈ g.steps, s.id = c.target) ∧
          ∀ id branches, .condition id branches ∈ g.steps →
            branches ≠ [] ∧ branches.countP Branch.isDefault ≤ 1) := by
  refine ⟨g.nodup_validate, mem_validate_iff, fun _ => mem_validate_iff,
    fun _ _ => mem_validate_iff, fun _ _ => mem_validate_iff, fun _ => mem_validate_iff,
    fun _ => mem_validate_iff, ?_⟩
  rw [validate_eq_nil_iff]
  exact ⟨fun h => ⟨h.start, h.ends, h.branches⟩, fun ⟨hstart, hends, hbranches⟩ =>
    ⟨hstart, hends, hbranches⟩⟩

end FlowGraph

end Dialogue
