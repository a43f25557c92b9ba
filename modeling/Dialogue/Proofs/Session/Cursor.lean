import Dialogue.Proofs.Session.Conditions

/-! Where the conversation goes on from. A walk ends at its origin or at a step that it came to, a
question belongs to a condition that a walk came to, and an edit forgets what it leaves without a
step. So the cursor can only be astray by a step that the caller named and that the flow lacks. -/

namespace Dialogue

/-- Whether an id is of a step of the flow, or one of `strays`. -/
def FlowGraph.Accounts (g : FlowGraph) (strays : List StepId) (id : StepId) : Prop :=
  g.contains id = true ∨ id ∈ strays

def Resumption.stepId? : Resumption → Option StepId
  | resume origin _ _ => some origin
  | stillMissing question _ => some question.stepId
  | noBranch _ | stale => none

theorem Resumption.KeepsTo.stepId?_eq {r : Resumption} {stepId id : StepId}
    {branches : List Branch} (h : r.KeepsTo stepId branches) (hid : r.stepId? = some id) :
    id = stepId := by
  cases r with
  | resume origin handle written =>
      cases hid
      exact h.1
  | stillMissing question written =>
      cases hid
      exact h.1
  | noBranch written => cases hid
  | stale => cases hid

namespace Walker

variable (w : Walker)

/-- A walk ends where it set out or at a step of the flow. -/
theorem cursor_walk (cursor : StepId) (handle input : Option String) (bubbleShown : Bool)
    (hops : Nat) :
    let t := w.walk cursor handle input bubbleShown hops
    t.cursor = cursor ∨ w.graph.contains t.cursor = true := by
  obtain ⟨chain, next?, hroute⟩ := w.exists_route hops ⟨cursor, handle, input, bubbleShown⟩
  have hcursor := hroute.cursor_eq
  cases hlast : (w.reached chain).getLast? with
  | none => exact .inl (by simpa [hlast] using hcursor)
  | some s =>
      have hs := FlowGraph.contains_of_step? (step?_of_mem_reached (List.mem_of_getLast? hlast))
      exact .inr (by simpa [hlast, hcursor] using hs)

end Walker

namespace Conversation

/-- Whether the cursor and all questions are of steps of the flow or of `strays`. -/
structure Anchored (g : FlowGraph) (strays : List StepId) (c : Conversation) : Prop where
  cursor : ∀ id ∈ c.cursor, g.Accounts strays id
  questions : ∀ i ∈ c.interceptors, g.Accounts strays i.stepId

variable {g : FlowGraph} {strays : List StepId} {c c' : Conversation}

theorem anchored_empty (g : FlowGraph) : empty.Anchored g [] := ⟨nofun, nofun⟩

theorem Anchored.mono {strays' : List StepId} (h : c.Anchored g strays) (hsub : strays ⊆ strays') :
    c.Anchored g strays' :=
  ⟨fun id hid => (h.cursor id hid).imp_right fun hmem => hsub hmem,
    fun i hi => (h.questions i hi).imp_right fun hmem => hsub hmem⟩

theorem Anchored.frame (h : c.Anchored g strays) (hcursor : c'.cursor = c.cursor)
    (hquestions : c'.interceptors ⊆ c.interceptors) : c'.Anchored g strays :=
  ⟨hcursor ▸ h.cursor, fun i hi => h.questions i (hquestions hi)⟩

theorem Anchored.take? {id : String} {i : Interceptor} (h : c.Anchored g strays)
    (ht : c.take? id = some (i, c')) : c'.Anchored g strays := by
  rcases take?_eq_some ht with ⟨-, rfl⟩ | ⟨-, rfl⟩
  · refine h.frame rfl fun j hj => ?_
    rw [mem_interceptors] at hj ⊢
    exact hj.imp_left List.mem_of_mem_eraseP
  · refine h.frame rfl fun j hj => ?_
    rw [mem_interceptors] at hj ⊢
    exact hj.imp_right List.mem_of_mem_eraseP

theorem Anchored.resolve (h : c.Anchored g strays) (ch : Choice) (freshId : String) :
    (c.resolve ch freshId).2.Anchored g strays := by
  unfold Conversation.resolve
  split
  · exact h
  · next i c' ht =>
    have htaken := h.take? ht
    split
    · exact htaken
    · exact htaken.frame rfl (List.Subset.refl _)

/-- An answer goes on from the step that it names. -/
theorem stepId?_resolve {ch : Choice} {freshId : String} {id : StepId}
    (h : (c.resolve ch freshId).1.stepId? = some id) : id = ch.stepId :=
  (c.keepsTo_resolve ch freshId).stepId?_eq h

theorem Anchored.beat {run : Run} {p : Pause} {events : List Event} {p' : Option Pause}
    (hbeat : Beat run c p events c' p') (h : c.Anchored g strays) : c'.Anchored g strays := by
  refine h.frame ?_ (hbeat.interceptors_eq ▸ List.Subset.refl _)
  cases hbeat <;> rfl

section Batch

variable {batch : List Entry} (h : c.Anchored g strays)
  (hbatch : ∀ i ∈ Entry.questions batch, g.Accounts strays i.stepId)

include h hbatch

theorem Anchored.apply : (c.apply batch).Anchored g strays := by
  have hcursor : ∀ (batch : List Entry) (c : Conversation),
      (c.apply batch).cursor = c.cursor := by
    intro batch
    induction batch with
    | nil => exact fun c => rfl
    | cons e rest ih => exact fun c => ih (c.commitShown e)
  refine ⟨hcursor batch c ▸ h.cursor, fun i hi => ?_⟩
  rw [mem_interceptors, history_apply, queue_apply, List.mem_append, or_right_comm] at hi
  rcases hi with hi | hi
  · exact h.questions i (mem_interceptors.mpr hi)
  · exact hbatch i (Entry.mem_questions.mpr hi)

theorem Anchored.enqueue : (c.enqueue batch).Anchored g strays := by
  refine ⟨h.cursor, fun i hi => ?_⟩
  rw [mem_interceptors, Conversation.enqueue, List.mem_append, ← or_assoc] at hi
  rcases hi with hi | hi
  · exact h.questions i (mem_interceptors.mpr hi)
  · exact hbatch i (Entry.mem_questions.mpr hi)

end Batch

theorem Anchored.halt (h : c.Anchored g strays) (marker : Feedback) :
    (c.halt marker).Anchored g strays := by
  refine h.frame rfl fun i hi => ?_
  rw [interceptors_halt] at hi
  rw [interceptors_eq]
  exact List.mem_append_left _ hi

/-- An edit leaves a cursor and questions only with steps of the flow. -/
theorem anchored_resync (c : Conversation) (g : FlowGraph) : (c.resync g).Anchored g [] := by
  refine ⟨fun id hid => ?_, fun i hi => ?_⟩
  · obtain ⟨-, hcontains⟩ := Option.mem_filter_iff.mp hid
    exact .inl hcontains
  · rw [interceptors_eq] at hi
    simp only [Conversation.resync, patchedHistory, Entry.questions_recut] at hi
    rcases List.mem_append.mp hi with hi | hi <;>
      exact .inl (FlowGraph.contains_of_step? (Entry.isOf_of_mem_questions_patch hi))

end Conversation

/-- Whether a plan leaves the cursor and questions with steps of the flow or of `strays`, and asks
only there. -/
structure Plan.Anchored (g : FlowGraph) (strays : List StepId) (p : Plan) : Prop where
  state : p.session.state.Anchored g strays
  batch : ∀ i ∈ Entry.questions p.batch, g.Accounts strays i.stepId

namespace Session

variable {s : Session} {ids : List StepId}

/-- The steps that the caller has named since the last edit or reset, of those that the flow
lacks. -/
def strays (s : Session) (ids : List StepId) : Move → List StepId
  | .act (.click origin _ _) _ => if s.graph.contains origin then ids else origin :: ids
  | .act (.resolve choice) _ =>
    if s.graph.contains choice.stepId then ids else choice.stepId :: ids
  | .reset | .setGraph _ => []
  | _ => ids

theorem anchored_planWalk {r : TraversalRequest} {before : List Entry}
    (h : s.state.Anchored s.graph ids) (horigin : s.graph.Accounts ids r.origin)
    (hbefore : Entry.questions before = []) : (s.planWalk r before).Anchored s.graph ids := by
  have hcursor := s.walker.cursor_walk r.origin r.handle r.input r.bubbleShown
    s.config.limits.maxHops
  refine ⟨⟨fun id hid => ?_, h.questions⟩, fun i hi => ?_⟩
  · cases hid
    rcases hcursor with hcursor | hcursor
    · rw [Walker.traverse, hcursor]
      exact horigin
    · exact .inl hcursor
  · simp only [planWalk, Entry.questions_append, hbefore, List.nil_append] at hi
    have hasked := s.walker.isOf_of_mem_questions_walk _ _ _ _ _ i hi
    exact .inl (FlowGraph.contains_of_step? hasked)

theorem anchored_planAnswer {choice : Choice} (h : s.state.Anchored s.graph ids)
    (hstep : s.graph.Accounts ids choice.stepId) :
    (s.planAnswer choice).Anchored s.graph ids := by
  have hresolved := h.resolve choice s.mint.interceptorId
  have hnamed : ∀ {id}, (s.state.resolve choice s.mint.interceptorId).1.stepId? = some id →
      s.graph.Accounts ids id := fun hid => Conversation.stepId?_resolve hid ▸ hstep
  simp only [planAnswer]
  cases hr : (s.state.resolve choice s.mint.interceptorId).1 with
  | resume origin handle written =>
      have hwalk := anchored_planWalk (s := { s with state := _, mint := s.mint.advance })
        (r := { origin, handle := some handle }) hresolved
        (hnamed (congrArg Resumption.stepId? hr)) Entry.questions_nil
      exact ⟨hwalk.state, hwalk.batch⟩
  | stillMissing question written =>
      refine ⟨hresolved, fun i hi => ?_⟩
      rw [List.mem_singleton.mp hi]
      exact hnamed (congrArg Resumption.stepId? hr)
  | noBranch written => exact ⟨hresolved, fun _ hi => absurd hi List.not_mem_nil⟩
  | stale => exact ⟨hresolved, fun _ hi => absurd hi List.not_mem_nil⟩

theorem anchored_plan (a : Act) (clock : Bool) (h : s.state.Anchored s.graph ids) :
    (s.plan a).Anchored s.graph (s.strays ids (.act a clock)) := by
  have hnothing : ∀ notice, Plan.Anchored s.graph ids ⟨s, [], notice, .ignored, none⟩ :=
    fun _ => ⟨h, nofun⟩
  -- the ids that the caller names are accounted for once they are noted
  have hnamed : ∀ id, s.graph.Accounts (if s.graph.contains id then ids else id :: ids) id := by
    intro id
    split
    · next hid => exact .inl hid
    · exact .inr List.mem_cons_self
  have hnoted : ∀ id, s.state.Anchored s.graph
      (if s.graph.contains id then ids else id :: ids) := by
    intro id
    split
    · exact h
    · exact h.mono (List.subset_cons_self _ _)
  cases a with
  | start =>
      simp only [plan]
      cases hstart : s.graph.start? with
      | none => exact hnothing _
      | some step => exact anchored_planWalk h (.inl (FlowGraph.contains_of_start? hstart)) rfl
  | send input =>
      simp only [plan]
      split
      · exact hnothing _
      · cases horigin : s.state.cursor.or (s.graph.start?.map Step.id) with
        | none => exact hnothing _
        | some origin =>
            refine anchored_planWalk (s := (s.bubble (Text.trim input)).2) h ?_ rfl
            rcases Option.or_eq_some_iff.mp horigin with hcursor | ⟨-, hstart⟩
            · exact h.cursor origin hcursor
            · obtain ⟨step, hstep, rfl⟩ := Option.map_eq_some_iff.mp hstart
              exact .inl (FlowGraph.contains_of_start? hstep)
  | click origin handle label =>
      exact anchored_planWalk (s := (s.bubble label).2) (hnoted origin) (hnamed origin) rfl
  | answer value =>
      simp only [plan]
      cases hp : s.state.pending? with
      | none => exact hnothing _
      | some i =>
          exact anchored_planAnswer h (h.questions i (List.mem_of_mem_head? hp))
  | resolve choice => exact anchored_planAnswer (hnoted choice.stepId) (hnamed choice.stepId)

theorem anchored_supersede (h : s.state.Anchored s.graph ids) :
    s.supersede.1.state.Anchored s.graph ids := by
  unfold supersede
  split
  · next i state hp =>
    obtain ⟨j, -, ht⟩ := Option.bind_eq_some_iff.mp hp
    exact h.take? ht
  · exact h

section Batch

variable {batch : List Entry} (h : s.state.Anchored s.graph ids)
  (hbatch : ∀ i ∈ Entry.questions batch, s.graph.Accounts ids i.stepId)

include h hbatch

theorem anchored_hand (clock : Bool) : (s.hand batch clock).1.state.Anchored s.graph ids := by
  rcases s.hand_cases batch clock with ⟨-, he⟩ | ⟨-, he⟩
  · rw [he]
    exact h.apply hbatch
  · rw [he, state_deliver]
    exact (h.enqueue hbatch).frame rfl (List.Subset.refl _)

theorem anchored_dispatch (clock : Bool) :
    (s.dispatch batch clock).1.state.Anchored s.graph ids := by
  unfold dispatch
  split
  · exact h
  · split
    · have hgraph : s.supersede.1.graph = s.graph := by
        unfold supersede
        split <;> rfl
      have hsuperseded := anchored_supersede h
      rw [← hgraph] at hsuperseded hbatch ⊢
      exact anchored_hand hsuperseded hbatch clock
    · exact anchored_hand h hbatch clock

end Batch

theorem anchored_perform (m : Move) (h : s.state.Anchored s.graph ids) :
    (s.perform m).session.state.Anchored (s.perform m).session.graph (s.strays ids m) := by
  cases m with
  | act a clock =>
      have hplan := anchored_plan a clock h
      obtain ⟨state, mint, hsession⟩ := s.exists_session_plan a
      have hgraph : (s.plan a).session.graph = s.graph := by rw [hsession]
      have hafter : (s.perform (.act a clock)).session.graph = s.graph := s.graph_perform nofun
      rw [hafter]
      simp only [perform, Response.session_map, act_eq_carryOut]
      rw [← hgraph] at hplan ⊢
      exact anchored_dispatch hplan.state hplan.batch clock
  | stop now =>
      simp only [perform, Response.session_map]
      rcases s.stop_cases now with ⟨-, he⟩ | ⟨-, he⟩
      · rw [he]
        exact h
      · rw [he]
        exact h.halt _
  | reset => exact Conversation.anchored_empty s.graph
  | setGraph graph => exact s.state.anchored_resync graph
  | setVariable name value => exact h.frame rfl (List.Subset.refl _)
  | proceed run =>
      simp only [perform]
      rcases s.proceed_cases run with he | ⟨p, -, -, he⟩ | ⟨-, he⟩
      · rw [he]
        exact h
      · rw [he]
        exact (Conversation.beats_resumeFrom s.live s.state p).invariant s.live
          (I := fun c _ => c.Anchored s.graph ids) Conversation.Anchored.beat h
      · rw [he]
        exact h

/-- The cursor is of a step of the flow, unless since the last edit or reset the caller has named it
in a click or an answer without there being such a step. -/
theorem contains_cursor_or_mem_strays (graph : FlowGraph) (config : Config) (mint : Mint)
    (moves : List Move) :
    let fresh := ofGraph graph config mint
    let s := fresh.after moves
    ∀ id ∈ s.state.cursor, s.graph.contains id = true ∨ id ∈ fresh.tracked strays [] moves := by
  intro fresh s
  have h : s.state.Anchored s.graph (fresh.tracked strays [] moves) :=
    tracked_induction (P := fun s ids => s.state.Anchored s.graph ids) moves
      (Conversation.anchored_empty graph) fun _ m _ _ h => anchored_perform m h
  exact h.cursor

/-- A click on a suggestion of a step that an edit has removed leaves the cursor there. -/
theorem cursor_goes_astray :
    let s := (ofGraph welcome (.instant "s") (.ofNonce "n")).after
      [.act .start false, .setGraph .empty, .act (.click "hello" none "Hi") false]
    s.state.cursor = some "hello" ∧ s.graph.contains "hello" = false := by
  decide +kernel

end Session

end Dialogue
