import Dialogue.Proofs.Condition
import Dialogue.Proofs.Session.Question

/-! Questions keep to their conditions. A walk asks at a condition for its branches, an answer that
is not enough asks for the same branches again, and an edit gives questions the branches that their
conditions have now. So an answer to the pending question leads on by a branch of the flow as it is,
however often the flow was edited since the question was asked. -/

namespace Dialogue

/-- Whether an answer at a step with some branches goes on by one of them, asks for the same
branches again, or does nothing, for want of branches or of a question. -/
def Resumption.KeepsTo (stepId : StepId) (branches : List Branch) : Resumption → Prop
  | resume origin handle _ => origin = stepId ∧ ∃ b ∈ branches, b.id = handle
  | stillMissing question _ => question.stepId = stepId ∧ question.branches = branches
  | noBranch _ => branches = []
  | stale => True

namespace Entry

/-- Whether the entry, if it is a question, is of a condition of the flow. -/
def AsksIn (g : FlowGraph) : Entry → Prop
  | interceptor i => i.IsOf g
  | _ => True

theorem asksIn_of_mem_questions {es : List Entry} {g : FlowGraph}
    (h : ∀ i ∈ questions es, i.IsOf g) : ∀ e ∈ es, e.AsksIn g := by
  intro e he
  cases e with
  | interceptor i => exact h i (mem_questions.mpr he)
  | _ => trivial

end Entry

namespace Choice

def IsOf (g : FlowGraph) (ch : Choice) : Prop :=
  g.step? ch.stepId = some (.condition ch.stepId ch.branches)

theorem keepsTo_resumeByDefault (ch : Choice) :
    ch.resumeByDefault.KeepsTo ch.stepId ch.branches := by
  unfold resumeByDefault
  split
  · next b hfallback => exact ⟨rfl, b, Condition.mem_of_fallback? hfallback, rfl⟩
  · next hfallback => exact Condition.eq_nil_of_fallback? hfallback

theorem keepsTo_resumeUnder (ch : Choice) (vs : Variables) (written : Variable) (freshId : String) :
    (ch.resumeUnder vs written freshId).KeepsTo ch.stepId ch.branches := by
  unfold resumeUnder
  split
  · next hbranch => exact ⟨rfl, Condition.exists_mem_of_resolve_branch hbranch⟩
  · exact ⟨rfl, rfl⟩
  · next hnone => exact Condition.eq_nil_of_resolve_noBranches hnone

theorem resumeByDefault_ne_stale (ch : Choice) : ch.resumeByDefault ≠ .stale := by
  unfold resumeByDefault
  split <;> nofun

theorem resumeUnder_ne_stale (ch : Choice) (vs : Variables) (written : Variable)
    (freshId : String) : ch.resumeUnder vs written freshId ≠ .stale := by
  unfold resumeUnder
  split <;> nofun

end Choice

namespace Conversation

theorem resolve_ne_stale_of_take? {c c' : Conversation} {ch : Choice} {i : Interceptor}
    (freshId : String) (h : c.take? ch.interceptorId = some (i, c')) :
    (c.resolve ch freshId).1 ≠ .stale := by
  simp only [Conversation.resolve, h]
  split
  · exact ch.resumeByDefault_ne_stale
  · exact ch.resumeUnder_ne_stale _ _ _

/-- An answer keeps to the step and the branches that it names. -/
theorem keepsTo_resolve (c : Conversation) (ch : Choice) (freshId : String) :
    (c.resolve ch freshId).1.KeepsTo ch.stepId ch.branches := by
  unfold Conversation.resolve
  split
  · trivial
  · split
    · exact ch.keepsTo_resumeByDefault
    · exact ch.keepsTo_resumeUnder _ _ _

theorem resolve_ne_stale {c : Conversation} {i : Interceptor} (h : c.pending? = some i)
    (value freshId : String) : (c.resolve (.answer i value) freshId).1 ≠ .stale := by
  obtain ⟨j, c', ht⟩ := exists_take?_of_pending? h
  exact resolve_ne_stale_of_take? freshId ht

def AsksIn (g : FlowGraph) (c : Conversation) : Prop := ∀ i ∈ c.interceptors, i.IsOf g

section

variable {g : FlowGraph} {c c' : Conversation}

theorem asksIn_empty (g : FlowGraph) : empty.AsksIn g := nofun

/-- An edit keeps questions of conditions of the flow only. -/
theorem asksIn_resync (c : Conversation) (g : FlowGraph) : (c.resync g).AsksIn g := by
  intro i hi
  rw [interceptors_eq] at hi
  simp only [Conversation.resync, patchedHistory, Entry.questions_recut] at hi
  rcases List.mem_append.mp hi with hi | hi <;> exact Entry.isOf_of_mem_questions_patch hi

/-- A stop asks nothing. -/
theorem AsksIn.halt (h : c.AsksIn g) (marker : Feedback) : (c.halt marker).AsksIn g := by
  intro i hi
  rw [interceptors_halt] at hi
  exact h i (c.interceptors_eq ▸ List.mem_append_left _ hi)

theorem AsksIn.stride {p : Pause} {p' : Option Pause} (h : c.AsksIn g) (hs : Stride c p c' p') :
    c'.AsksIn g := fun i hi => h i (hs.interceptors_eq ▸ hi)

/-- What the user does asks in the flow, if the questions that it brings do. -/
theorem AsksIn.shift {p p' : Option Pause} (h : c.AsksIn g)
    (hs : Shift true (Entry.AsksIn g) c p c' p') : c'.AsksIn g :=
  fun i hi => (hs.mem_interceptors hi).elim (h i) fun hasks => hasks

end

end Conversation

namespace Session

variable {s : Session}

theorem asksIn_of_mem_planWalk (r : TraversalRequest) {before : List Entry}
    (hbefore : Entry.questions before = []) :
    ∀ e ∈ (s.planWalk r before).batch, e.AsksIn s.graph := by
  refine Entry.asksIn_of_mem_questions fun i hi => ?_
  simp only [planWalk, Entry.questions_append, hbefore, List.nil_append] at hi
  exact s.walker.isOf_of_mem_questions_walk _ _ _ _ _ i hi

/-- An answer for a condition of the flow asks for conditions of the flow. -/
theorem asksIn_of_mem_planAnswer {choice : Choice} (h : choice.IsOf s.graph) :
    ∀ e ∈ (s.planAnswer choice).batch, e.AsksIn s.graph := by
  have hkeeps := s.state.keepsTo_resolve choice s.mint.interceptorId
  simp only [planAnswer]
  cases hr : (s.state.resolve choice s.mint.interceptorId).1 with
  | resume origin handle written =>
      exact asksIn_of_mem_planWalk (s := { s with state := _, mint := s.mint.advance }) _ rfl
  | stillMissing question written =>
      rw [hr] at hkeeps
      obtain ⟨hstep, hbranches⟩ := hkeeps
      intro e he
      rw [List.mem_singleton.mp he]
      unfold Choice.IsOf at h
      rw [← hstep, ← hbranches] at h
      exact h
  | noBranch written => exact List.forall_mem_nil _
  | stale => exact List.forall_mem_nil _

/-- Acts ask for conditions of the flow, if answers are given to questions as these were asked. -/
theorem asksIn_of_mem_plan {a : Act} (ha : ∀ choice, a ≠ .resolve choice)
    (h : s.state.AsksIn s.graph) : ∀ e ∈ (s.plan a).batch, e.AsksIn s.graph := by
  cases a with
  | start =>
      simp only [plan]
      split
      · exact asksIn_of_mem_planWalk _ rfl
      · exact List.forall_mem_nil _
  | send input =>
      simp only [plan]
      split
      · exact List.forall_mem_nil _
      · split
        · exact List.forall_mem_nil _
        · exact asksIn_of_mem_planWalk (s := (s.bubble (Text.trim input)).2) _ rfl
  | click origin handle label =>
      exact asksIn_of_mem_planWalk (s := (s.bubble label).2) _ rfl
  | answer value =>
      simp only [plan]
      split
      · next i hi => exact asksIn_of_mem_planAnswer (h i (List.mem_of_mem_head? hi))
      · exact List.forall_mem_nil _
  | resolve choice => exact absurd rfl (ha choice)

theorem Sound.asksIn_perform (hs : s.Sound) {m : Move}
    (hm : ∀ choice clock, m ≠ .act (.resolve choice) clock) (h : s.state.AsksIn s.graph) :
    (s.perform m).session.state.AsksIn (s.perform m).session.graph := by
  by_cases hedit : ∃ graph, m = .setGraph graph
  · obtain ⟨graph, rfl⟩ := hedit
    exact s.state.asksIn_resync graph
  · have hedit := not_exists.mp hedit
    rw [s.graph_perform hedit]
    refine hs.move_induction (I := fun c _ => c.AsksIn s.graph) (fun hc => hc.shift) hedit
      (.inl rfl) ?_ (fun hc => hc.stride) (fun _ _ => h.halt)
      (fun _ => Conversation.asksIn_empty s.graph) h
    rintro a clock rfl
    exact asksIn_of_mem_plan (fun choice ha => hm choice clock (ha ▸ rfl)) h

/-- If questions are only answered as they were asked, every question in history and queue names a
condition of the flow as it is now and has the branches that this condition has now. An answer to
the pending one then goes on by one of these branches, asks for the same condition again, or ends
the chain because the condition has no branches. -/
theorem question_matches_flow (graph : FlowGraph) (config : Config) (mint : Mint)
    (moves : List Move) (hanswers : ∀ choice clock, .act (.resolve choice) clock ∉ moves) :
    let s := (ofGraph graph config mint).after moves
    (∀ i, .interceptor i ∈ s.state.history ++ s.state.queue →
        s.graph.step? i.stepId = some (.condition i.stepId i.branches)) ∧
      ∀ i, s.state.pending? = some i → ∀ value,
        s.answerPending value = s.resolve (.answer i value) ∧
          let resumption := (s.state.resolve (.answer i value) s.mint.interceptorId).1
          (∃ b ∈ i.branches, ∃ written, resumption = .resume i.stepId b.id written) ∨
            (∃ question written, resumption = .stillMissing question written ∧
              question.stepId = i.stepId ∧ question.branches = i.branches) ∨
            (i.branches = [] ∧ ∃ written, resumption = .noBranch written) := by
  intro s
  have h : s.state.AsksIn s.graph := by
    refine course_induction (P := fun s => s.state.AsksIn s.graph) moves
      (Conversation.asksIn_empty graph) fun earlier m later hsplit hearlier => ?_
    refine ((sound_ofGraph graph config mint).after earlier).asksIn_perform ?_ hearlier
    rintro choice clock rfl
    exact hanswers choice clock (hsplit ▸ List.mem_append_cons_self)
  refine ⟨fun i hi => h i (Entry.mem_questions.mpr hi), fun i hi value => ⟨?_, ?_⟩⟩
  · funext clock
    simp only [answerPending, hi]
  · intro resumption
    have hkeeps : resumption.KeepsTo i.stepId i.branches := s.state.keepsTo_resolve _ _
    have hstale : resumption ≠ .stale := Conversation.resolve_ne_stale hi value _
    cases hr : resumption with
    | resume origin handle written =>
        rw [hr] at hkeeps
        obtain ⟨rfl, b, hb, rfl⟩ := hkeeps
        exact .inl ⟨b, hb, written, rfl⟩
    | stillMissing question written =>
        rw [hr] at hkeeps
        exact .inr (.inl ⟨question, written, rfl, hkeeps⟩)
    | noBranch written =>
        rw [hr] at hkeeps
        exact .inr (.inr ⟨hkeeps, written, rfl⟩)
    | stale => exact absurd hr hstale

end Session

def moodyWelcomeFlow : Flow :=
  let branches :=
    [(Branch.plain "good").guardedBy "mood" "good", (Branch.plain "bad").guardedBy "mood" "bad"]
  { welcomeFlow with steps := welcomeFlow.steps.set 2 (.condition "mood" branches) }

def moodyWelcome : FlowGraph := ⟨moodyWelcomeFlow, by decide +kernel, _, rfl, _, rfl⟩

/-- A question that is still in the queue when the flow is edited has the new branches. -/
theorem Session.question_matches_flow_welcome :
    let s := (ofGraph welcome (.standard "s") (.ofNonce "n")).after
      [.act .start true, .proceed ⟨1⟩, .setGraph moodyWelcome]
    let i : Interceptor := ⟨"interceptor-n-0", "mood",
      [(Branch.plain "good").guardedBy "mood" "good", (Branch.plain "bad").guardedBy "mood" "bad"],
      "mood"⟩
    .interceptor i ∈ s.state.queue ∧
      s.graph.step? "mood" = some (.condition "mood" i.branches) ∧
      s.answerPending "bad" = s.resolve (.answer i "bad") := by
  intro s i
  have h := question_matches_flow welcome (.standard "s") (.ofNonce "n")
    [.act .start true, .proceed ⟨1⟩, .setGraph moodyWelcome] (fun choice clock => by simp)
  have hqueue : .interceptor i ∈ s.state.queue := by decide +kernel
  have hpending : s.state.pending? = some i := by decide +kernel
  exact ⟨hqueue, h.1 i (List.mem_append_right _ hqueue), (h.2 i hpending "bad").1⟩

end Dialogue
