import Dialogue.Proofs.Condition
import Dialogue.Proofs.Flow.Index
import Dialogue.Proofs.Session.Pace
import Dialogue.Proofs.Session.Question
import Dialogue.Proofs.Traversal.Limit

/-! A walk that stops to ask for a variable takes no other route for it. Where all conditions are
guarded, what it finds before the question and what it finds after the answer make up the walk that
would have been made had the variable been bound from the start. -/

namespace Dialogue

namespace Traversal

/-- A walk that ended with a question, with the walk behind it that went on from the answer. -/
def resumedBy (first resumed : Traversal) : Traversal :=
  { resumed with
    entries := (first.entries.filter fun e => !e.isQuestion) ++ resumed.entries
    hops := first.hops + resumed.hops }

theorem rename_resumedBy {f : String → String} (first : Traversal) {t t' : Traversal}
    (h : t.rename f = t'.rename f) :
    (first.resumedBy t).rename f = (first.resumedBy t').rename f := by
  simp only [rename, mk.injEq] at h
  simp [rename, resumedBy, h]

theorem after_resumedBy {entries : List Entry} (h : Entry.questions entries = [])
    (first resumed : Traversal) :
    (first.after entries).resumedBy resumed = (first.resumedBy resumed).after entries := by
  have hkept : (entries.filter fun e => !e.isQuestion) = entries := by
    refine List.filter_eq_self.mpr fun e he => ?_
    have hnone := List.filterMap_eq_nil_iff.mp h e he
    simp [Entry.isQuestion, hnone]
  simp only [resumedBy, after, List.filter_append, hkept, List.append_assoc, mk.injEq, true_and]
  omega

theorem interceptor?_after {entries : List Entry} (h : Entry.questions entries = [])
    (t : Traversal) : (t.after entries).interceptor? = t.interceptor? := by
  have hnone : entries.reverse.findSome? Entry.interceptor? = none := by
    refine List.findSome?_eq_none_iff.mpr fun e he => ?_
    exact List.filterMap_eq_nil_iff.mp h e (List.mem_reverse.mp he)
  simp [interceptor?, after, List.findSome?_append, hnone]

end Traversal

namespace Walker

variable {w : Walker} {i : Interceptor}

/-- A step raises a question only if it is a condition that lacks the variable. -/
theorem arrive_of_interceptor? {input : Option String} {bubbleShown : Bool} {s : Step}
    {entries : List Entry} {stop : StopReason} (hs : w.graph.step? s.id = some s)
    (ha : w.arrive input bubbleShown s = (entries, .error stop))
    (hi : entries.reverse.findSome? Entry.interceptor? = some i) :
    s = .condition i.stepId i.branches ∧
      entries = [.step (.condition i.stepId i.branches), .interceptor i] := by
  have hasked : .interceptor i ∈ entries :=
    Traversal.mem_of_interceptor? (t := ⟨entries, s.id, stop, 1⟩) hi
  obtain ⟨hentries, hid, hcondition, -⟩ := (ending_of_arrive hs ha).question hasked
  rw [hid, hcondition] at hs
  exact ⟨(Option.some.inj hs).symm, hentries⟩

/-- A walk that ends with a question lacks its variable, and all branches that it had to decide
between are those of a condition of the flow. -/
theorem missing?_of_interceptor? {cursor : StepId} {handle input : Option String}
    {bubbleShown : Bool} {hops : Nat}
    (h : (w.walk cursor handle input bubbleShown hops).interceptor? = some i) :
    Condition.missing? i.branches w.store = some i.variableName ∧
      .condition i.stepId i.branches ∈ w.graph.steps := by
  have hasks := asksLast_of_mem_walk (Traversal.mem_of_interceptor? h)
  exact ⟨Condition.missing?_eq_some_iff.mpr hasks.missing,
    (FlowGraph.step?_eq_some hasks.step?_eq).1⟩

section Bound

variable {v : Variable} (hguarded : w.graph.IsGuarded)
  (hunbound : w.store.contains v.name = false)

include hguarded hunbound

/-- A condition that has been passed is passed the same way once one more variable is bound. -/
theorem arrive_of_bound (id : String) {input : Option String} {bubbleShown : Bool} {s : Step}
    (hs : s ∈ w.graph.steps) {entries : List Entry} {next : Option String}
    (ha : w.arrive input bubbleShown s = (entries, .ok next)) :
    { w with store := w.store.set v, interceptorId := id }.arrive input bubbleShown s =
      (entries, .ok next) := by
  cases s with
  | condition step branches =>
      simp only [arrive] at ha ⊢
      split at ha
      · next branch hresolve =>
        have hsame : ∀ name, w.store.contains name = true →
            (w.store.set v).get? name = w.store.get? name := by
          intro name hbound
          rw [Variables.get?_set, if_neg]
          rintro rfl
          rw [hunbound] at hbound
          cases hbound
        have hbranches : ∀ b ∈ branches, b.IsGuarded := hguarded _ hs
        rw [Condition.resolve_congr hbranches (Condition.missing?_of_resolve_branch hresolve)
          hsame input input, hresolve]
        exact ha
      · cases ha
      · cases ha
  | _ => exact ha

/-- With the variable bound from the start, a walk goes on where it would have asked for it. -/
theorem walk_of_bound (id : String) {branch : BranchId}
    (hbranch : ∀ input, Condition.resolve i.branches (w.store.set v) input = .branch branch)
    {cursor : StepId} {handle input : Option String} {bubbleShown : Bool} {hops : Nat}
    (h : (w.walk cursor handle input bubbleShown hops).interceptor? = some i) :
    { w with store := w.store.set v, interceptorId := id }.walk cursor handle input bubbleShown
        hops =
      (w.walk cursor handle input bubbleShown hops).resumedBy
        ({ w with store := w.store.set v, interceptorId := id }.walk i.stepId (some branch) none
          false (hops - (w.walk cursor handle input bubbleShown hops).hops)) := by
  -- along the walk that asks: up to the question both walks do the same, and there the bound one
  -- takes the branch with as many hops left as the other has not used
  fun_induction walk w cursor handle input bubbleShown hops with
  | case1 | case2 | case3 => cases h
  | case4 cursor handle input bubbleShown c hexit hops s hs entries stop ha =>
      obtain ⟨rfl, rfl⟩ := arrive_of_interceptor? (FlowGraph.step?_id hs) ha h
      have harrive : { w with store := w.store.set v, interceptorId := id }.arrive input bubbleShown
          (.condition i.stepId i.branches) =
            ([.step (.condition i.stepId i.branches)], .ok (some branch)) := by
        simp only [arrive, hbranch]
      rw [walk_succ_of_ok (w := { w with store := w.store.set v, interceptorId := id }) hexit hs
        harrive]
      simp only [Traversal.after, Traversal.resumedBy, Nat.succ_sub_one, Nat.add_comm]
      rfl
  | case5 cursor handle input bubbleShown c hexit hops s hs entries next ha ih =>
      have hquestions := questions_arrive_of_ok ha
      have harrive := arrive_of_bound hguarded hunbound id (FlowGraph.step?_eq_some hs).1 ha
      rw [Traversal.interceptor?_after hquestions] at h
      rw [walk_succ_of_ok (w := { w with store := w.store.set v, interceptorId := id }) hexit hs
        harrive, ih h, Traversal.after_resumedBy hquestions]
      simp only [Traversal.after, Nat.succ_sub_succ]

end Bound

end Walker

namespace Conversation

/-- An answer that leads on has bound its variable, and all variables that are asked for. -/
theorem resolve_of_resume {c : Conversation} {i : Interceptor} {value freshId : String}
    (hvalue : value ≠ Choice.defaultValue) {origin : StepId} {branch : BranchId}
    {written : Option Variable}
    (h : (c.resolve (.answer i value) freshId).1 = .resume origin branch written) :
    origin = i.stepId ∧ Condition.resolve i.branches
      (c.store.set (.text i.variableName value)) (some value) = .branch branch := by
  unfold resolve at h
  split at h
  · cases h
  · next j c' ht =>
    have hstore : c'.store = c.store := by rw [take?_frame ht]
    simp only [Choice.answer, hvalue, if_false, Choice.resumeUnder, setVariable, hstore] at h
    split at h
    · next branch' hresolve =>
      cases h
      exact ⟨rfl, hresolve⟩
    · cases h
    · cases h

end Conversation

namespace Walker

/-- A walk that asks for a variable, the answer, and the walk that goes on from there come to what
one walk comes to that knows the answer from the start. -/
theorem pausing_keeps_route (w : Walker) (limits : TraversalLimits) (r : TraversalRequest)
    (hguarded : w.graph.IsGuarded) {i : Interceptor}
    (hasks : (w.traverse limits r).interceptor? = some i) {c : Conversation}
    (hstore : c.store = w.store) {value freshId : String} (hvalue : value ≠ Choice.defaultValue)
    {origin : StepId} {branch : BranchId} {written : Option Variable}
    (hresume : (c.resolve (.answer i value) freshId).1 = .resume origin branch written)
    {f : String → String} (resumedId directId : String) (hids : f resumedId = f directId) :
    let store := w.store.set (.text i.variableName value)
    let first := w.traverse limits r
    let resumed := { w with store, interceptorId := resumedId }.traverse limits
      { origin, handle := some branch }
    let direct := { w with store, interceptorId := directId }.traverse limits r
    first.hops + resumed.hops ≤ limits.maxHops →
      direct.rename f = (first.resumedBy resumed).rename f := by
  intro store first resumed direct hhops
  obtain ⟨rfl, hresolve⟩ := Conversation.resolve_of_resume hvalue hresume
  rw [hstore] at hresolve
  obtain ⟨hmissing, hcondition⟩ := missing?_of_interceptor? hasks
  have hbranches : ∀ b ∈ i.branches, b.IsGuarded := hguarded _ hcondition
  have hbranch : ∀ input, Condition.resolve i.branches store input = .branch branch := by
    intro input
    rw [Condition.resolve_congr hbranches (Condition.missing?_of_resolve_branch hresolve)
      (fun _ _ => rfl) (some value) input]
    exact hresolve
  -- the walk from the answer, had it the id of the direct walk to give to a further question
  let again := { w with store, interceptorId := directId }.traverse limits
    { origin := i.stepId, handle := some branch }
  have hagain : resumed.rename f = again.rename f :=
    rename_walk (w := { w with store, interceptorId := directId }) hids.symm _ _ _ _ _
  have hsame : again.hops = resumed.hops := (congrArg Traversal.hops hagain).symm
  have hdirect : direct = first.resumedBy again := by
    have hleft : again.hops ≤ limits.maxHops - first.hops := by omega
    have hwalk := walk_of_hops_le hleft (Nat.sub_le _ _)
    have hbound := walk_of_bound hguarded (Condition.contains_of_missing? hmissing) directId
      hbranch hasks
    exact hbound.trans (congrArg first.resumedBy hwalk)
  rw [hdirect]
  exact Traversal.rename_resumedBy first hagain.symm

/-- One who is asked, and says that the mood is good, hears what is heard if the mood is known. -/
theorem pausing_keeps_route_welcome :
    let w : Walker := ⟨welcome, .empty, .standard, "asked"⟩
    let store := w.store.set (.text "mood" "good")
    let first := w.traverse .standard { origin := "start" }
    let resumed := { w with store, interceptorId := "resumed" }.traverse .standard
      { origin := "mood", handle := some "good" }
    let direct := { w with store, interceptorId := "direct" }.traverse .standard
      { origin := "start" }
    let anonymous : String → String := fun _ => ""
    first.stop = .awaitingVariable ∧ resumed.entries.map Entry.id = ["glad"] ∧
      direct.rename anonymous = (first.resumedBy resumed).rename anonymous := by
  intro w store first resumed direct anonymous
  let i : Interceptor :=
    ⟨"asked", "mood", [(Branch.plain "good").guardedBy "mood" "good", .fallback "other"], "mood"⟩
  let c : Conversation := { history := [.interceptor i] }
  have hasks : first.interceptor? = some i := by decide +kernel
  have hresume : (c.resolve (.answer i "good") "again").1 =
      .resume "mood" "good" (some (.text "mood" "good")) := by decide +kernel
  have hids : anonymous "resumed" = anonymous "direct" := rfl
  have hroute := pausing_keeps_route w .standard { origin := "start" } (by decide +kernel) hasks
    (c := c) rfl (by decide +kernel) hresume "resumed" "direct" hids (by decide +kernel)
  exact ⟨by decide +kernel, by decide +kernel, hroute⟩

end Walker

end Dialogue
