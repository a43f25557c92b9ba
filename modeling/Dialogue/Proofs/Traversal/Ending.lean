import Dialogue.Proofs.Traversal.Route

/-! What the result of a walk tells. A walk leaves one step after the other and then ends, in one of
a few ways. Which of them it was can be read off the reason that is given, and off the last entries
as well. -/

namespace Dialogue

namespace FlowGraph

/-- Whether one of the ways out of a step leads to a user turn. -/
def LeadsToUserTurn (g : FlowGraph) (id : StepId) : Prop :=
  ∃ c ∈ g.ways id, ∃ s, g.step? c.target = some s ∧ s.isUserTurn = true

theorem awaitsInputAfter_iff {g : FlowGraph} {id : StepId} :
    g.awaitsInputAfter id = true ↔ g.LeadsToUserTurn id := by
  simp [awaitsInputAfter, routable_eq_ways, LeadsToUserTurn, Option.any_eq_true]

end FlowGraph

theorem Entry.interceptor?_eq_some_iff {e : Entry} {i : Interceptor} :
    e.interceptor? = some i ↔ e = .interceptor i := by
  cases e <;> simp [interceptor?]

theorem Traversal.mem_of_interceptor? {t : Traversal} {i : Interceptor}
    (h : t.interceptor? = some i) : .interceptor i ∈ t.entries := by
  obtain ⟨e, he, hi⟩ := List.exists_of_findSome?_eq_some h
  exact Entry.interceptor?_eq_some_iff.mp hi ▸ List.mem_reverse.mp he

def Entry.AwaitsInput (g : FlowGraph) (e : Entry) : Prop :=
  ∃ id components, e = .step (.turn id components) ∧ g.LeadsToUserTurn id

namespace Walker

variable {w : Walker}

/-- The ways in which a walk ends: where, why, and with which entries behind those of the steps that
it has left. -/
inductive Ending (w : Walker) (cursor : StepId) : StopReason → List Entry → Prop where
  | unmatched : Ending w cursor .noIntentMatch []
  | finished : Ending w cursor .endOfChain []
  | cut : Ending w cursor .hopLimit []
  | dangling {c : Connection} (hc : c ∈ w.graph.ways cursor) (hs : w.graph.step? c.target = none) :
      Ending w cursor .danglingConnection []
  | awaiting {components : List Component} (huser : w.graph.LeadsToUserTurn cursor) :
      Ending w cursor .awaitingInput [.step (.turn cursor components)]
  | asking {branches : List Branch} {name : String}
      (hs : w.graph.step? cursor = some (.condition cursor branches))
      (hname : Condition.IsFirstMissing branches w.store name) :
      Ending w cursor .awaitingVariable [.step (.condition cursor branches),
        .interceptor ⟨w.interceptorId, name, branches, cursor⟩]
  | branchless (hs : w.graph.step? cursor = some (.condition cursor [])) :
      Ending w cursor .endOfChain [.step (.condition cursor [])]

def Leaves (w : Walker) (e : Entry) : Prop := e.interceptor? = none ∧ ¬ e.AwaitsInput w.graph

theorem ending_of_exit {cursor : StepId} {handle input : Option String} {stop : StopReason}
    (h : w.exit cursor handle input = .error stop) : w.Ending cursor stop [] := by
  obtain ⟨-, rfl⟩ := opening?_of_exit_error (r := ⟨cursor, handle, input, false⟩) h
  simp only [endBehind, List.getLast?_nil]
  split
  · exact .unmatched
  · exact .finished

theorem ending_of_arrive {input : Option String} {bubbleShown : Bool} {s : Step}
    {entries : List Entry} {stop : StopReason} (hs : w.graph.step? s.id = some s)
    (ha : w.arrive input bubbleShown s = (entries, .error stop)) :
    w.Ending s.id stop entries := by
  cases s with
  | turn id components =>
      simp only [arrive] at ha
      split at ha
      · next hawaits =>
        cases ha
        exact .awaiting (FlowGraph.awaitsInputAfter_iff.mp hawaits)
      · cases ha
  | condition id branches =>
      simp only [arrive] at ha
      split at ha
      · cases ha
      · next name hresolve =>
        cases ha
        have hmissing := Condition.missing?_of_resolve hresolve
        exact .asking hs (Condition.missing?_eq_some_iff.mp hmissing)
      · next hresolve =>
        cases ha
        obtain rfl := Condition.eq_nil_of_resolve_noBranches hresolve
        exact .branchless hs
  | _ => cases ha

theorem leaves_step {s : Step}
    (h : ∀ id components, s = .turn id components → ¬ w.graph.LeadsToUserTurn id) :
    w.Leaves (.step s) := by
  refine ⟨rfl, ?_⟩
  rintro ⟨id, components, he, huser⟩
  cases he
  exact h id components rfl huser

theorem leaves_of_arrive {input : Option String} {bubbleShown : Bool} {s : Step}
    {entries : List Entry} {handle : Option String}
    (ha : w.arrive input bubbleShown s = (entries, .ok handle)) : ∀ e ∈ entries, w.Leaves e := by
  intro e he
  cases s with
  | turn id components =>
      simp only [arrive] at ha
      split at ha
      · cases ha
      · next hawaits =>
        cases ha
        obtain rfl := List.mem_singleton.mp he
        refine leaves_step fun id components hturn huser => hawaits ?_
        cases hturn
        exact FlowGraph.awaitsInputAfter_iff.mpr huser
  | userTurn id label trigger =>
      cases ha
      cases bubbleShown with
      | true => cases he
      | false =>
          obtain rfl := List.mem_singleton.mp he
          exact leaves_step (by simp)
  | condition id branches =>
      simp only [arrive] at ha
      split at ha <;> cases ha
      obtain rfl := List.mem_singleton.mp he
      exact leaves_step (by simp)
  | _ =>
      cases ha
      cases he

/-- A walk leaves one step after the other, and then it ends. -/
theorem exists_ending (w : Walker) (cursor : StepId) (handle input : Option String)
    (bubbleShown : Bool) (hops : Nat) :
    let t := w.walk cursor handle input bubbleShown hops
    ∃ left last, t.entries = left ++ last ∧ (∀ e ∈ left, w.Leaves e) ∧
      w.Ending t.cursor t.stop last := by
  -- along the walk: only its last hop can end it, and all steps before that one are left
  simp only
  fun_induction walk w cursor handle input bubbleShown hops with
  | case1 hops cursor handle input bubbleShown stop hexit =>
      exact ⟨[], [], rfl, List.forall_mem_nil _, ending_of_exit hexit⟩
  | case2 cursor handle input bubbleShown c hexit =>
      exact ⟨[], [], rfl, List.forall_mem_nil _, .cut⟩
  | case3 cursor handle input bubbleShown c hexit hops hs =>
      exact ⟨[], [], rfl, List.forall_mem_nil _, .dangling (mem_ways_of_exit hexit) hs⟩
  | case4 cursor handle input bubbleShown c hexit hops s hs entries stop ha =>
      exact ⟨[], entries, rfl, List.forall_mem_nil _, ending_of_arrive (FlowGraph.step?_id hs) ha⟩
  | case5 cursor handle input bubbleShown c hexit hops s hs entries next ha ih =>
      obtain ⟨left, last, hentries, hleft, hending⟩ := ih
      refine ⟨entries ++ left, last, ?_, ?_, hending⟩
      · rw [Traversal.after, hentries, List.append_assoc]
      · exact List.forall_mem_append.mpr ⟨leaves_of_arrive ha, hleft⟩

section Behind

variable {left last : List Entry} (hleft : ∀ e ∈ left, w.Leaves e)

include hleft

theorem unasked_of_leaves (i : Interceptor) : .interceptor i ∉ left :=
  fun hi => nomatch (hleft _ hi).1

/-- The last entry awaits input only if it is one that the walk ended with. -/
theorem awaits_append_iff :
    (∃ e, (left ++ last).getLast? = some e ∧ e.AwaitsInput w.graph) ↔
      ∃ e, last.getLast? = some e ∧ e.AwaitsInput w.graph := by
  rw [List.getLast?_append]
  cases hlast : last.getLast? with
  | some e => rfl
  | none =>
      refine iff_of_false ?_ nofun
      rintro ⟨e, he, hawaits⟩
      exact (hleft e (List.mem_of_getLast? he)).2 hawaits

theorem passes_append (hlast : ∀ e ∈ last.dropLast, ¬ e.AwaitsInput w.graph) :
    ∀ e ∈ (left ++ last).dropLast, ¬ e.AwaitsInput w.graph := by
  intro e he
  rw [List.dropLast_append] at he
  split at he
  · exact (hleft e (List.dropLast_subset _ he)).2
  · rcases List.mem_append.mp he with he | he
    · exact (hleft e he).2
    · exact hlast e he

end Behind

namespace Ending

variable {cursor : StepId} {stop : StopReason} {last : List Entry} (h : w.Ending cursor stop last)

include h

theorem asks_iff : (∃ i, .interceptor i ∈ last) ↔ stop = .awaitingVariable := by
  cases h <;> simp

theorem awaits_iff :
    (∃ e, last.getLast? = some e ∧ e.AwaitsInput w.graph) ↔ stop = .awaitingInput := by
  cases h <;> simp_all [Entry.AwaitsInput]

theorem passes : ∀ e ∈ last.dropLast, ¬ e.AwaitsInput w.graph := by
  cases h <;> simp [Entry.AwaitsInput]

theorem question {i : Interceptor} (hi : .interceptor i ∈ last) :
    last = [.step (.condition i.stepId i.branches), .interceptor i] ∧ cursor = i.stepId ∧
      w.graph.step? i.stepId = some (.condition i.stepId i.branches) ∧
      Condition.IsFirstMissing i.branches w.store i.variableName := by
  cases h with
  | asking hs hname =>
      simp only [List.mem_cons, reduceCtorEq, Entry.interceptor.injEq, List.not_mem_nil,
        or_false, false_or] at hi
      subst hi
      exact ⟨rfl, rfl, hs, hname⟩
  | _ => simp at hi

end Ending

/-- Whether a question is the only one that a walk came to, and the last entry, behind the condition
at which the walk ended, and asks for the first variable that this condition lacks. -/
structure AsksLast (w : Walker) (t : Traversal) (i : Interceptor) : Prop where
  entries_eq : ∃ earlier,
    t.entries = earlier ++ [.step (.condition i.stepId i.branches), .interceptor i] ∧
      ∀ j, .interceptor j ∉ earlier
  cursor_eq : t.cursor = i.stepId
  step?_eq : w.graph.step? i.stepId = some (.condition i.stepId i.branches)
  missing : Condition.IsFirstMissing i.branches w.store i.variableName

theorem asksLast_of_mem_walk {cursor : StepId} {handle input : Option String} {bubbleShown : Bool}
    {hops : Nat} {i : Interceptor}
    (hi : .interceptor i ∈ (w.walk cursor handle input bubbleShown hops).entries) :
    w.AsksLast (w.walk cursor handle input bubbleShown hops) i := by
  obtain ⟨left, last, hentries, hleft, hending⟩ :=
    w.exists_ending cursor handle input bubbleShown hops
  have hunasked := unasked_of_leaves hleft
  rw [hentries] at hi
  obtain ⟨hlast, hcursor, hs, hname⟩ :=
    hending.question ((List.mem_append.mp hi).resolve_left (hunasked i))
  exact ⟨⟨left, hlast ▸ hentries, hunasked⟩, hcursor, hs, hname⟩

theorem mem_ways_of_onward? {input : Option String} {s : Step} {c : Connection}
    (h : w.onward? input s = some c) : c ∈ w.graph.ways s.id := by
  cases s with
  | turn id components =>
      simp only [onward?] at h
      split at h
      · cases h
      · exact List.mem_of_head? h
  | condition id branches =>
      simp only [onward?] at h
      split at h
      · exact List.mem_of_find?_eq_some h
      · cases h
      · cases h
  | note id text => cases h
  | _ => exact List.mem_of_head? h

theorem Follows.mem_ways {first? next? : Option Connection} {input : Option String}
    {chain : List Connection} (h : w.Follows first? input chain next?) {origin : StepId}
    (hfirst : ∀ c ∈ first?, c ∈ w.graph.ways origin) :
    ∀ c ∈ next?, c ∈ w.graph.ways (((w.reached chain).getLast?.map Step.id).getD origin) := by
  induction h generalizing origin with
  | nil next? input => exact hfirst
  | @cons c input chain next? rest ih =>
      cases hs : w.graph.step? c.target with
      | none =>
          -- a connection that leads nowhere is the last: nothing is named behind it
          have hreached : w.reached (c :: chain) = w.reached chain := List.filterMap_cons_none hs
          rw [hreached]
          refine ih fun c' hc' => ?_
          simp [behind?, hs] at hc'
      | some s =>
          have honward : ∀ c' ∈ next?,
              c' ∈ w.graph.ways (((w.reached chain).getLast?.map Step.id).getD s.id) := by
            refine ih fun c' hc' => ?_
            have hleft : w.onward? input s = some c' := by simpa [behind?, hs] using hc'
            exact mem_ways_of_onward? hleft
          rw [reached_cons hs, List.getLast?_cons]
          cases hlast : (w.reached chain).getLast? with
          | none => simpa [hlast] using honward
          | some s' => simpa [hlast] using honward

theorem endAt_ne_hopLimit (w : Walker) (s : Step) : w.endAt s ≠ .hopLimit := by
  cases s <;> simp only [endAt] <;> split <;> decide

theorem endAt_ne_noIntentMatch (w : Walker) (s : Step) : w.endAt s ≠ .noIntentMatch := by
  cases s <;> simp only [endAt] <;> split <;> decide

theorem endBehind_ne_hopLimit (w : Walker) (r : TraversalRequest) (chain : List Connection) :
    w.endBehind r chain ≠ .hopLimit := by
  unfold endBehind
  split
  · split <;> nofun
  · split
    · nofun
    · exact w.endAt_ne_hopLimit _

/-- Only a walk that has not begun ends for the reason that no user turn was meant. -/
theorem eq_nil_of_endBehind {r : TraversalRequest} {chain : List Connection}
    (h : w.endBehind r chain = .noIntentMatch) : chain = [] := by
  unfold endBehind at h
  split at h
  · next hnone => exact List.getLast?_eq_none_iff.mp hnone
  · split at h
    · cases h
    · exact absurd h (w.endAt_ne_noIntentMatch _)

/-- What the result of a walk tells of how the walk went. -/
structure Truthful (w : Walker) (limits : TraversalLimits) (r : TraversalRequest)
    (t : Traversal) : Prop where
  hops_le : t.hops ≤ limits.maxHops
  length_entries_le : t.entries.length ≤ t.hops + 1
  /-- There is a question just where the walk ended for want of a variable. -/
  asks_iff : (∃ i, .interceptor i ∈ t.entries) ↔ t.stop = .awaitingVariable
  question : ∀ i, .interceptor i ∈ t.entries → w.AsksLast t i
  /-- The walk waits just where the last entry is a turn that a user turn follows. -/
  awaits_iff : (∃ e, t.entries.getLast? = some e ∧ e.AwaitsInput w.graph) ↔
    t.stop = .awaitingInput
  passes : ∀ e ∈ t.entries.dropLast, ¬ e.AwaitsInput w.graph
  unmatched : t.stop = .noIntentMatch → t.hops = 0 ∧ t.entries = [] ∧ t.cursor = r.origin
  /-- The limit ends a walk only where the rules name a connection that leaves its cursor. -/
  limited : t.stop = .hopLimit → t.hops = limits.maxHops ∧ ∃ chain c,
    w.Follows (w.opening? r) r.input chain (some c) ∧ chain.length = t.hops ∧
      c ∈ w.graph.ways t.cursor

namespace Route

variable {hops : Nat} {r : TraversalRequest} {chain : List Connection} {next? : Option Connection}
  {t : Traversal} (h : w.Route hops r chain next? t)

include h

theorem length_entries_le : t.entries.length ≤ t.hops + 1 := by
  have hlisted := (listed_sublist r.bubbleShown (w.reached chain)).length_le
  have hreached : (w.reached chain).length ≤ chain.length := List.length_filterMap_le _ _
  have hquestion :
      (((w.reached chain).getLast?.bind w.question?).map Entry.interceptor).toList.length ≤ 1 :=
    Option.length_toList_le
  rw [h.entries_eq, h.hops_eq, List.length_append, List.length_map]
  omega

theorem unmatched (hstop : t.stop = .noIntentMatch) :
    t.hops = 0 ∧ t.entries = [] ∧ t.cursor = r.origin := by
  have hnext : next? = none := by
    cases next? with
    | none => rfl
    | some c => cases hstop.symm.trans h.stop_eq
  obtain rfl : chain = [] := eq_nil_of_endBehind (by rw [← hstop, h.stop_eq, hnext]; rfl)
  have hnothing : listed r.bubbleShown [] = [] := by cases r.bubbleShown <;> rfl
  exact ⟨h.hops_eq, h.entries_eq.trans (by simp [reached, hnothing]), h.cursor_eq⟩

theorem limited (hstop : t.stop = .hopLimit) :
    t.hops = hops ∧ ∃ chain c, w.Follows (w.opening? r) r.input chain (some c) ∧
      chain.length = t.hops ∧ c ∈ w.graph.ways t.cursor := by
  cases next? with
  | none => exact absurd (h.stop_eq.symm.trans hstop) (w.endBehind_ne_hopLimit r chain)
  | some c =>
      have hways := h.follows.mem_ways (fun c hc => mem_ways_of_opening? hc) c rfl
      rw [← h.cursor_eq] at hways
      exact ⟨h.hops_eq.trans (h.cut rfl), chain, c, h.follows, h.hops_eq.symm, hways⟩

end Route

/-- The reason that is given for the end of a walk is true, and the numbers keep to their bounds. -/
theorem truthful_traverse (w : Walker) (limits : TraversalLimits) (r : TraversalRequest) :
    w.Truthful limits r (w.traverse limits r) := by
  obtain ⟨left, last, hentries, hleft, hending⟩ :=
    w.exists_ending r.origin r.handle r.input r.bubbleShown limits.maxHops
  obtain ⟨chain, next?, hroute⟩ := w.exists_route limits.maxHops r
  rw [← traverse] at hentries hending hroute
  have hunasked := unasked_of_leaves hleft
  exact {
    hops_le := hroute.hops_eq ▸ hroute.within
    length_entries_le := hroute.length_entries_le
    asks_iff := by simp only [hentries, List.mem_append, hunasked, false_or, hending.asks_iff]
    question _ hi := asksLast_of_mem_walk hi
    awaits_iff := by rw [hentries, awaits_append_iff hleft, hending.awaits_iff]
    passes := hentries ▸ passes_append hleft hending.passes
    unmatched := hroute.unmatched
    limited := hroute.limited }

end Walker

end Dialogue
