import Dialogue.Proofs.Flow.Index
import Dialogue.Proofs.Traversal.Agreement

/-! Notes do not take part. A flow without its notes, and without the connections from and into
them, has the same steps and ways out wherever a walk can come, so walks through it are the same. -/

namespace Dialogue

namespace Flow

def isNote (f : Flow) (id : StepId) : Bool := f.steps.any fun s => s.isNote && s.id == id

/-- The flow without its notes, and without the connections from and into them. -/
def withoutNotes (f : Flow) : Flow where
  steps := f.steps.filter fun s => !s.isNote
  connections := f.connections.filter fun c => !f.isNote c.source && !f.isNote c.target

theorem problem?_withoutNotes {f : Flow} (h : f.problem? = none) :
    f.withoutNotes.problem? = none :=
  problemAfter_of_sublist h List.filter_sublist

end Flow

namespace FlowGraph

def withoutNotes (g : FlowGraph) : FlowGraph :=
  ⟨g.flow.withoutNotes, Flow.problem?_withoutNotes g.sound, _, rfl, _, rfl⟩

variable {g : FlowGraph} {id : StepId}

theorem isNote_eq (g : FlowGraph) (id : StepId) :
    g.flow.isNote id = (g.step? id).any Step.isNote := by
  rw [Bool.eq_iff_iff, Option.any_eq_true]
  simp only [Flow.isNote, List.any_eq_true, step?_eq_some_iff, Bool.and_eq_true, beq_iff_eq]
  exact ⟨fun ⟨s, hs, hnote, hid⟩ => ⟨s, ⟨hs, hid⟩, hnote⟩,
    fun ⟨s, ⟨hs, hid⟩, hnote⟩ => ⟨s, hs, hnote, hid⟩⟩

theorem step?_withoutNotes (g : FlowGraph) (id : StepId) :
    g.withoutNotes.step? id = (g.step? id).filter fun s => !s.isNote := by
  ext s
  rw [step?_eq_some_iff, Option.filter_eq_some_iff, step?_eq_some_iff]
  simp [withoutNotes, steps, Flow.withoutNotes, and_right_comm]

theorem step?_withoutNotes_of_not (h : g.flow.isNote id = false) :
    g.withoutNotes.step? id = g.step? id := by
  rw [isNote_eq] at h
  rw [step?_withoutNotes]
  cases hs : g.step? id with
  | none => rfl
  | some s => simpa [hs] using h

theorem any_step?_withoutNotes {p : Step → Bool} (hp : ∀ s, s.isNote = true → p s = false)
    (g : FlowGraph) (id : StepId) : (g.withoutNotes.step? id).any p = (g.step? id).any p := by
  rw [step?_withoutNotes, Option.any_filter]
  congr 1
  funext s
  cases hnote : s.isNote with
  | true => simp [hp s hnote]
  | false => rfl

theorem any_isNote_withoutNotes (g : FlowGraph) (id : StepId) :
    (g.withoutNotes.step? id).any Step.isNote = false := by
  simp [step?_withoutNotes, Option.any_filter]

/-- No way leads to a note. -/
theorem isNote_target_of_mem_ways {c : Connection} (h : c ∈ g.ways id) :
    g.flow.isNote c.target = false := by
  have hkept := (List.mem_filter.mp h).2
  rw [isNote_eq]
  simpa using (Bool.and_eq_true_iff.mp hkept).2

theorem ways_withoutNotes (h : g.flow.isNote id = false) :
    g.withoutNotes.ways id = g.ways id := by
  have hconnections : g.withoutNotes.connections =
      g.connections.filter fun c => !g.flow.isNote c.source && !g.flow.isNote c.target := rfl
  rw [ways, ways, hconnections, List.filter_filter]
  refine List.filter_congr fun c _ => ?_
  rw [any_isNote_withoutNotes, ← isNote_eq]
  by_cases hsource : c.source = id
  · simp [hsource, h]
  · simp [hsource]

theorem awaitsInputAfter_withoutNotes (h : g.flow.isNote id = false) :
    g.withoutNotes.awaitsInputAfter id = g.awaitsInputAfter id := by
  have hnote : ∀ s : Step, s.isNote = true → s.isUserTurn = false := by
    intro s hnote
    cases s with
    | userTurn id label trigger => cases hnote
    | _ => rfl
  simp only [awaitsInputAfter, routable_eq_ways, ways_withoutNotes h, any_step?_withoutNotes hnote]

end FlowGraph

/-- No note is among the candidates. -/
theorem IntentConfig.bestStep?_withoutNotes (cfg : IntentConfig) (g : FlowGraph) (input : String)
    (ids : List StepId) : cfg.bestStep? g.withoutNotes input ids = cfg.bestStep? g input ids := by
  have hsteps : ids.filterMap g.withoutNotes.step? =
      (ids.filterMap g.step?).filter fun s => !s.isNote := by
    rw [List.filter_filterMap]
    exact List.filterMap_congr fun id _ => g.step?_withoutNotes id
  rw [bestStep?, bestStep?, hsteps, List.filterMap_filter]
  congr 1
  refine List.filterMap_congr fun s _ => ?_
  cases s <;> rfl

namespace Walker

/-- No way leads to a note, and with or without notes a walk finds the same at any other step. -/
theorem agreesOn_withoutNotes (w : Walker) :
    w.AgreesOn { w with graph := w.graph.withoutNotes }
      fun id => w.graph.flow.isNote id = false where
  exit_eq := by
    intro cursor hcursor handle input
    simp only [exit, matchIntent?, FlowGraph.next?, FlowGraph.routable_eq_ways,
      FlowGraph.ways_withoutNotes hcursor, IntentConfig.bestStep?_withoutNotes]
  step?_eq := by
    intro cursor _ c hc
    exact FlowGraph.step?_withoutNotes_of_not (FlowGraph.isNote_target_of_mem_ways hc)
  arrive_eq := by
    intro s _ hs input bubbleShown
    cases s with
    | turn id components =>
        have hawaits : w.graph.withoutNotes.awaitsInputAfter id = w.graph.awaitsInputAfter id :=
          FlowGraph.awaitsInputAfter_withoutNotes hs
        simp only [arrive, hawaits]
    | _ => rfl
  closed := by
    intro cursor _ c hc s hs
    rw [(FlowGraph.step?_eq_some hs).2]
    exact FlowGraph.isNote_target_of_mem_ways hc

/-- Where it does not begin at a note, a walk comes to the same without the notes of the flow, but
for the id that a question may get. -/
theorem traverse_withoutNotes (w : Walker) (limits : TraversalLimits) (r : TraversalRequest)
    (horigin : w.graph.flow.isNote r.origin = false) {f : String → String} (id id' : String)
    (hids : f id = f id') :
    ({ w with graph := w.graph.withoutNotes, interceptorId := id }.traverse limits r).rename f =
      ({ w with interceptorId := id' }.traverse limits r).rename f := by
  let w' : Walker := { w with interceptorId := id' }
  exact w'.agreesOn_withoutNotes.rename_traverse limits horigin hids.symm

end Walker

def annotatedOutingFlow : Flow :=
  { outingFlow with
    steps := .note "remark" "Ask about the sky" :: outingFlow.steps
    connections := .between "start" "remark" :: .between "remark" "out" ::
      ⟨"sky", "remark", some "fair"⟩ :: outingFlow.connections }

def annotatedOuting : FlowGraph := ⟨annotatedOutingFlow, by decide +kernel, _, rfl, _, rfl⟩

/-- The remark, which the flow connects first, does not keep anyone from going out. -/
theorem Walker.traverse_withoutNotes_outing :
    let w : Walker :=
      ⟨annotatedOuting, .ofList [.text "weather" "sunny"], .standard, "asked"⟩
    let r : TraversalRequest := { origin := "start" }
    let anonymous : String → String := fun _ => ""
    w.graph.flow.isNote r.origin = false ∧ w.graph.flow.withoutNotes = outingFlow ∧
      (w.traverse .standard r).entries.map Entry.id = ["sky", "out"] ∧
      ({ w with graph := w.graph.withoutNotes, interceptorId := "a" }.traverse .standard r).rename
        anonymous =
      ({ w with interceptorId := "b" }.traverse .standard r).rename anonymous := by
  intro w r anonymous
  have horigin : w.graph.flow.isNote r.origin = false := by decide +kernel
  have hsame := w.traverse_withoutNotes .standard r horigin (f := anonymous) "a" "b" rfl
  exact ⟨horigin, by decide +kernel, by decide +kernel, hsame⟩

end Dialogue
