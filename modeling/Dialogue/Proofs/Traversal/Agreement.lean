import Dialogue.Proofs.Conversation.Rename
import Dialogue.Proofs.Traversal.Route

/-! Walkers that come to the same. Where walkers leave and reach steps alike, and neither gets away
from there, they walk alike. Walkers with different variables do so if these say the same of what
the conditions of their flow look at. -/

namespace Dialogue

namespace Walker

/-- Whether walkers do the same at a set of steps that a walk does not get out of. -/
structure AgreesOn (w w' : Walker) (on : StepId → Prop) : Prop where
  exit_eq : ∀ cursor, on cursor → ∀ handle input,
    w'.exit cursor handle input = w.exit cursor handle input
  step?_eq : ∀ cursor, on cursor → ∀ c ∈ w.graph.ways cursor,
    w'.graph.step? c.target = w.graph.step? c.target
  arrive_eq : ∀ s ∈ w.graph.steps, on s.id → ∀ input bubbleShown,
    w'.arrive input bubbleShown s = w.arrive input bubbleShown s
  closed : ∀ cursor, on cursor → ∀ c ∈ w.graph.ways cursor, ∀ s,
    w.graph.step? c.target = some s → on s.id

namespace AgreesOn

variable {w w' : Walker} {on : StepId → Prop} (h : w.AgreesOn w' on)

include h

/-- Walkers that agree walk the same way. -/
theorem walk_eq {cursor : StepId} (hon : on cursor) (handle input : Option String)
    (bubbleShown : Bool) (hops : Nat) :
    w'.walk cursor handle input bubbleShown hops = w.walk cursor handle input bubbleShown hops := by
  fun_induction walk w cursor handle input bubbleShown hops with
  | case1 hops cursor handle input bubbleShown stop hexit =>
      rw [walk, h.exit_eq cursor hon, hexit]
  | case2 cursor handle input bubbleShown c hexit =>
      rw [walk, h.exit_eq cursor hon, hexit]
  | case3 cursor handle input bubbleShown c hexit hops hs =>
      have hstep := h.step?_eq cursor hon c (mem_ways_of_exit hexit)
      rw [walk, h.exit_eq cursor hon, hexit]
      simp only [hstep, hs]
  | case4 cursor handle input bubbleShown c hexit hops s hs entries stop ha =>
      have hways := mem_ways_of_exit hexit
      have hstep := h.step?_eq cursor hon c hways
      have hreached := h.closed cursor hon c hways s hs
      have harrive := h.arrive_eq s (FlowGraph.step?_eq_some hs).1 hreached
      rw [walk, h.exit_eq cursor hon, hexit]
      simp only [hstep, hs, harrive, ha]
  | case5 cursor handle input bubbleShown c hexit hops s hs entries next ha ih =>
      have hways := mem_ways_of_exit hexit
      have hstep := h.step?_eq cursor hon c hways
      have hreached := h.closed cursor hon c hways s hs
      have harrive := h.arrive_eq s (FlowGraph.step?_eq_some hs).1 hreached
      rw [walk, h.exit_eq cursor hon, hexit]
      simp only [hstep, hs, harrive, ha, ih hreached]

/-- Walkers that agree answer requests alike, but for the id that a question may get. -/
theorem rename_traverse (limits : TraversalLimits) {r : TraversalRequest} (horigin : on r.origin)
    {f : String → String} {id : String} (hid : f w'.interceptorId = f id) :
    ({ w' with interceptorId := id }.traverse limits r).rename f =
      (w.traverse limits r).rename f := by
  have hwalk := h.walk_eq horigin r.handle r.input r.bubbleShown limits.maxHops
  rw [traverse, traverse, rename_walk hid, hwalk]

end AgreesOn

end Walker

/-! ### Variables that nothing looks at -/

def FlowGraph.mentioned (g : FlowGraph) : List String :=
  g.steps.flatMap fun s => s.branches.filterMap Branch.guardName?

theorem FlowGraph.mem_mentioned {g : FlowGraph} {id : StepId} {branches : List Branch} {b : Branch}
    {name : String} (hs : .condition id branches ∈ g.steps) (hb : b ∈ branches)
    (hname : b.guardName? = some name) : name ∈ g.mentioned :=
  List.mem_flatMap.mpr ⟨_, hs, List.mem_filterMap.mpr ⟨b, hb, hname⟩⟩

namespace Walker

variable {w : Walker} {store : Variables}

/-- Of what a walker does, only the decisions of conditions depend on its variables. -/
theorem agreesOn_of_agreeAt (hagree : ∀ name ∈ w.graph.mentioned, w.store.AgreeAt store name) :
    w.AgreesOn { w with store } fun _ => True where
  exit_eq _ _ _ _ := rfl
  step?_eq _ _ _ _ := rfl
  arrive_eq := by
    intro s hs _ input bubbleShown
    cases s with
    | condition id branches =>
        have hdecides : Condition.resolve branches store input =
            Condition.resolve branches w.store input :=
          Condition.resolve_of_agreeAt
            (fun b hb name hname => hagree name (FlowGraph.mem_mentioned hs hb hname)) input
        simp only [arrive, hdecides]
    | _ => rfl
  closed _ _ _ _ _ _ := trivial

/-- A walker answers alike under variables that agree on all that the flow mentions, but for the id
that a question may get. -/
theorem traverse_of_agreeAt (w : Walker) (limits : TraversalLimits) (r : TraversalRequest)
    {store : Variables} (hagree : ∀ name ∈ w.graph.mentioned, w.store.AgreeAt store name)
    {f : String → String} (id id' : String) (hids : f id = f id') :
    ({ w with store, interceptorId := id }.traverse limits r).rename f =
      ({ w with interceptorId := id' }.traverse limits r).rename f := by
  let w' : Walker := { w with interceptorId := id' }
  exact (agreesOn_of_agreeAt (w := w') hagree).rename_traverse limits trivial hids.symm

end Walker

def outingFlow : Flow where
  steps := [.start "start",
    .condition "sky" [(Branch.plain "fair").guardedBy "weather" "sunny", .fallback "foul"],
    .turn "out" [.message "m" "Out we go"], .turn "in" [.message "m" "Better stay in"]]
  connections := [.between "start" "sky", ⟨"sky", "out", some "fair"⟩, ⟨"sky", "in", some "foul"⟩]

def outing : FlowGraph := ⟨outingFlow, by decide +kernel, _, rfl, _, rfl⟩

/-- How the weather is spelled, and what else is known, does not matter to the outing. -/
theorem Walker.traverse_of_agreeAt_outing :
    let w : Walker := ⟨outing, .ofList [.text "weather" "sunny"], .standard, "asked"⟩
    let store := Variables.ofList [.text "weather" " Sunny ", .text "name" "Ada"]
    let anonymous : String → String := fun _ => ""
    (∀ name ∈ w.graph.mentioned, w.store.AgreeAt store name) ∧
      (w.traverse .standard { origin := "start" }).entries.map Entry.id = ["sky", "out"] ∧
      ({ w with store, interceptorId := "a" }.traverse .standard { origin := "start" }).rename
        anonymous =
      ({ w with interceptorId := "b" }.traverse .standard { origin := "start" }).rename
        anonymous := by
  intro w store anonymous
  have hagree : ∀ name ∈ w.graph.mentioned, w.store.AgreeAt store name := by decide +kernel
  have hsame := w.traverse_of_agreeAt .standard { origin := "start" } hagree (f := anonymous)
    "a" "b" rfl
  exact ⟨hagree, by decide +kernel, hsame⟩

end Dialogue
