import Dialogue.Proofs.Flow.Issue
import Dialogue.Proofs.Traversal.Ending

/-! Walks end at faults of the flow only where validation has listed them. A walk that comes upon a
missing step has followed one of the flow's own connections, and one that comes upon a condition
without branches ends there. -/

namespace Dialogue

theorem FlowGraph.connects_of_mem_ways {g : FlowGraph} {source : StepId} {c : Connection}
    (h : c ∈ g.ways source) : g.Connects source c.target :=
  ⟨c, (List.mem_filter.mp h).1, source_of_mem_ways h, rfl⟩

namespace Walker

variable {w : Walker} {input : Option String} {bubbleShown : Bool}

/-- A walk that comes upon a missing step ends in front of it, at a connection of the flow. -/
theorem exists_isOf_of_ending {cursor : StepId} {last : List Entry}
    (h : w.Ending cursor .danglingConnection last) :
    ∃ target, (Issue.danglingConnection cursor target).IsOf w.graph := by
  cases h with
  | @dangling c hc hs =>
      exact ⟨c.target, FlowGraph.connects_of_mem_ways hc, FlowGraph.step?_eq_none_iff.mp hs⟩

theorem eq_of_step_mem_arrive {s t : Step} (h : .step t ∈ (w.arrive input bubbleShown s).1) :
    t = s := by
  cases s with
  | condition id branches =>
      simp only [arrive] at h
      split at h <;> simpa using h
  | userTurn id label trigger =>
      cases bubbleShown with
      | true => cases h
      | false => simpa [arrive] using h
  | turn id components => simpa [arrive] using h
  | _ => cases h

theorem eq_of_branchless_mem_arrive {s : Step} {entries : List Entry}
    {next : Except StopReason (Option String)} {id : StepId}
    (ha : w.arrive input bubbleShown s = (entries, next))
    (h : .step (.condition id []) ∈ entries) :
    s = .condition id [] ∧ next = .error .endOfChain := by
  have hadded : .step (.condition id []) ∈ (w.arrive input bubbleShown s).1 := by
    rw [ha]
    exact h
  obtain rfl := eq_of_step_mem_arrive hadded
  cases ha
  exact ⟨rfl, rfl⟩

theorem ends_of_branchless_mem_walk {cursor : StepId} {handle : Option String} {hops : Nat}
    {id : StepId}
    (h : .step (.condition id []) ∈ (w.walk cursor handle input bubbleShown hops).entries) :
    let t := w.walk cursor handle input bubbleShown hops
    t.stop = .endOfChain ∧ t.cursor = id ∧ .condition id [] ∈ w.graph.steps := by
  -- along the walk: the hop that adds the condition is the last
  simp only
  fun_induction walk w cursor handle input bubbleShown hops with
  | case1 | case2 | case3 => cases h
  | case4 cursor handle input bubbleShown c hexit hops s hs entries stop ha =>
      obtain ⟨rfl, hstop⟩ := eq_of_branchless_mem_arrive ha h
      cases hstop
      exact ⟨rfl, rfl, (FlowGraph.step?_eq_some hs).1⟩
  | case5 cursor handle input bubbleShown c hexit hops s hs entries next ha ih =>
      rcases List.mem_append.mp h with hentries | hrest
      · obtain ⟨-, hnext⟩ := eq_of_branchless_mem_arrive ha hentries
        cases hnext
      · exact ih hrest

/-- Validation foretells which faults of a flow can end a walk. Where a walk comes upon a missing
step, an issue tells of a connection from its cursor to one, so no walk does in a flow without such
an issue. Where a walk reaches a condition that cannot decide for want of branches, it ends there,
and an issue tells of the condition. -/
theorem validate_foretells (w : Walker) (limits : TraversalLimits) (r : TraversalRequest) :
    let t := w.traverse limits r
    (t.stop = .danglingConnection →
        ∃ target, .danglingConnection t.cursor target ∈ w.graph.validate) ∧
      ((∀ source target, .danglingConnection source target ∉ w.graph.validate) →
        t.stop ≠ .danglingConnection) ∧
      ∀ id branches input, .step (.condition id branches) ∈ t.entries →
        Condition.resolve branches w.store input = .noBranches →
        t.stop = .endOfChain ∧ t.cursor = id ∧ .emptyCondition t.cursor ∈ w.graph.validate := by
  intro t
  have hdangling : t.stop = .danglingConnection →
      ∃ target, .danglingConnection t.cursor target ∈ w.graph.validate := by
    intro hstop
    obtain ⟨left, last, -, -, hending⟩ :=
      w.exists_ending r.origin r.handle r.input r.bubbleShown limits.maxHops
    rw [← traverse, hstop] at hending
    obtain ⟨target, hissue⟩ := exists_isOf_of_ending hending
    exact ⟨target, FlowGraph.mem_validate_iff.mpr hissue⟩
  refine ⟨hdangling, fun hnone hstop => ?_, ?_⟩
  · obtain ⟨target, hlisted⟩ := hdangling hstop
    exact hnone _ target hlisted
  · intro id branches input he hresolve
    obtain rfl := Condition.eq_nil_of_resolve_noBranches hresolve
    obtain ⟨hstop, hcursor, hmem⟩ := ends_of_branchless_mem_walk he
    have hissue : (Issue.emptyCondition t.cursor).IsOf w.graph := hcursor.symm ▸ hmem
    exact ⟨hstop, hcursor, FlowGraph.mem_validate_iff.mpr hissue⟩

example :
    let f : Flow := ⟨[.start "s", .turn "t" []], [.between "s" "t", .between "t" "ghost"]⟩
    let g : FlowGraph := ⟨f, by decide +kernel, _, rfl, _, rfl⟩
    let t := Walker.traverse ⟨g, .empty, .standard, "asked"⟩ .standard { origin := "s" }
    t.stop = .danglingConnection ∧ t.cursor = "t" ∧
      g.validate = [.danglingConnection "t" "ghost"] := by
  decide +kernel

end Walker

end Dialogue
