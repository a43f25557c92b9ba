import Dialogue.Proofs.Flow.Index
import Dialogue.Proofs.Session.Beat
import Dialogue.Proofs.Session.Soundness
import Dialogue.Proofs.Traversal.Route

/-! What can happen to a conversation, said once. What a run does up to its next pause is made of
strides, which are its beats without what they announce and with the mood left open, and what the
user does is made of shifts. What both keep, of a conversation and of the pause of its latest run,
is kept by all moves but those that stop, forget or edit. -/

namespace Dialogue

namespace Conversation

/-- One thing that a run does at a pause, and where it is then. -/
inductive Stride : Conversation → Pause → Conversation → Option Pause → Prop where
  | mood (c p phase isThinking) : Stride c p { c with phase, isThinking } (some p)
  | commit (c e rest) (hqueue : c.queue = e :: rest)
      (hturn : ∀ id components, e ≠ .step (.turn id components)) :
      Stride c .unstarted { c.commit e with queue := rest } (some .unstarted)
  | take (c id components rest) (hqueue : c.queue = .step (.turn id components) :: rest) :
      Stride c .unstarted { c with queue := rest } (some (.beforeTurn id components))
  | settle (c) (hqueue : c.queue = []) : Stride c .unstarted { c with isActive := false } none
  | openTurn (c id components) :
      Stride c (.beforeTurn id components) (c.commit (.step (.turn id components)))
        (some (.behind components))
  | beginText (c d rest ch chars) (htext : d.characters = ch :: chars) :
      Stride c (.beforeComponent d rest) (c.beginStream d.id)
        (some (.beforeCharacter d ch chars rest))
  | beginWhole (c d rest) (htext : d.characters = []) :
      Stride c (.beforeComponent d rest) c (some (.beforeReveal d rest))
  | reveal (c d rest) : Stride c (.beforeReveal d rest) (c.reveal d.id) (some (.behind rest))
  | push (c d ch ch' chars rest) :
      Stride c (.beforeCharacter d ch (ch' :: chars) rest) (c.push ch)
        (some (.beforeCharacter d ch' chars rest))
  | finish (c d ch rest) :
      Stride c (.beforeCharacter d ch [] rest) (c.push ch).finishStream (some (.behind rest))

/-- One thing that an act of the user does. The entries that it brings have the property `P`, and
are committed at once only where nothing is on its way, or where they may come too `early`. -/
inductive Shift (early : Bool) (P : Entry → Prop) :
    Conversation → Option Pause → Conversation → Option Pause → Prop where
  | take (c p id i c') (htake : c.take? id = some (i, c')) : Shift early P c p c' p
  | assign (c p store cursor) : Shift early P c p { c with store, cursor } p
  | commitShown (c p e) (hentry : P e) (hplace : early = true ∨ p = none) :
      Shift early P c p (c.commitShown e) p
  | enqueue (c p batch) (hbatch : ∀ e ∈ batch, P e) :
      Shift early P c p { c.enqueue batch with isActive := true } (some (p.getD .unstarted))

/-- What is on its way while the latest run waits at `p`: the turn in its hands, and the queue. -/
def coming (c : Conversation) (p : Option Pause) : List Entry := p.elim [] Pause.held ++ c.queue

theorem Stride.coming_subset {c c' : Conversation} {p : Pause} {p' : Option Pause}
    (h : Stride c p c' p') : c'.coming p' ⊆ c.coming (some p) := by
  have hbehind : ∀ (c : Conversation) rest, c.coming (some (.behind rest)) = c.queue := by
    intro c rest
    cases rest <;> rfl
  intro e he
  cases h with
  | commit e' rest hqueue hturn =>
      simp only [coming, Option.elim, Pause.held, List.nil_append, hqueue] at he ⊢
      exact List.mem_cons_of_mem _ he
  | take id components rest hqueue => simpa [coming, Pause.held, hqueue] using he
  | settle hqueue => exact he
  | openTurn id components =>
      rw [hbehind] at he
      exact List.mem_append_right _ he
  | reveal d rest =>
      rw [hbehind] at he
      exact he
  | finish d ch rest =>
      rw [hbehind] at he
      exact he
  | _ => exact he

theorem Shift.mem_coming {early : Bool} {P : Entry → Prop} {c c' : Conversation}
    {p p' : Option Pause} (h : Shift early P c p c' p') {e : Entry} (he : e ∈ c'.coming p') :
    e ∈ c.coming p ∨ P e := by
  cases h with
  | take id i c' htake =>
      refine .inl ?_
      rcases take?_eq_some htake with ⟨-, rfl⟩ | ⟨-, rfl⟩
      · exact he
      · rcases List.mem_append.mp he with he | he
        · exact List.mem_append_left _ he
        · exact List.mem_append_right _ (List.mem_of_mem_eraseP he)
  | assign store cursor => exact .inl he
  | commitShown e' hentry hplace => exact .inl he
  | enqueue batch hbatch =>
      have hheld : (some (p.getD .unstarted)).elim [] Pause.held = p.elim [] Pause.held := by
        cases p <;> rfl
      simp only [coming, hheld] at he
      rcases List.mem_append.mp he with he | he
      · exact .inl (List.mem_append_left _ he)
      · rcases List.mem_append.mp he with he | he
        · exact .inl (List.mem_append_right _ he)
        · exact .inr (hbatch e he)

section Run

variable (run : Run) {I : Conversation → Option Pause → Prop}
  (hstride : ∀ {c p c' p'}, I c (some p) → Stride c p c' p' → I c' p')

include hstride

/-- A beat is made of strides. -/
theorem Beat.stride_induction {c c' : Conversation} {p : Pause} {events : List Event}
    {p' : Option Pause} (hbeat : Beat run c p events c' p') (h : I c (some p)) : I c' p' := by
  cases hbeat with
  | commit e rest hqueue hturn => exact hstride h (.commit c e rest hqueue hturn)
  | take id components rest hqueue =>
      exact hstride (hstride h (.take c id components rest hqueue)) (.mood _ _ _ _)
  | settle hqueue => exact hstride (hstride h (.mood c _ _ false)) (.settle _ hqueue)
  | openTurn id components =>
      exact hstride (hstride h (.mood c _ c.phase false)) (.openTurn _ id components)
  | pause d rest => exact hstride h (.mood c _ _ _)
  | beginText d rest ch chars htext => exact hstride h (.beginText c d rest ch chars htext)
  | beginWhole d rest htext =>
      exact hstride (hstride h (.beginWhole c d rest htext)) (.mood _ _ _ _)
  | reveal d rest => exact hstride h (.reveal c d rest)
  | push d ch ch' chars rest => exact hstride h (.push c d ch ch' chars rest)
  | finish d ch rest => exact hstride h (.finish c d ch rest)

/-- From one pause to the next a run takes strides only. -/
theorem resumeFrom_induction {c : Conversation} (p : Pause) (h : I c (some p)) :
    I (resumeFrom run c p).state (resumeFrom run c p).pause :=
  (beats_resumeFrom run c p).invariant run (fun hbeat => hbeat.stride_induction run hstride) h

end Run

end Conversation

namespace Move

def isOnward : Move → Bool
  | act .. | setVariable .. | proceed _ => true
  | _ => false

theorem ne_setGraph_of_isOnward {m : Move} (hm : m.isOnward = true) (graph : FlowGraph) :
    m ≠ .setGraph graph := by
  intro he
  rw [he] at hm
  cases hm

end Move

/-! ### What acts bring -/

/-- What a walk through a flow can bring: steps of the flow, questions, and what the user said. -/
inductive Entry.ComesFrom (g : FlowGraph) : Entry → Prop where
  | step {s : Step} (h : g.step? s.id = some s) : ComesFrom g (.step s)
  | interceptor (i : Interceptor) : ComesFrom g (.interceptor i)
  | userMessage (m : UserMessage) : ComesFrom g (.userMessage m)

theorem Entry.ComesFrom.step?_eq_some {g : FlowGraph} {s : Step} (h : (Entry.step s).ComesFrom g) :
    g.step? s.id = some s := by
  cases h with
  | step hfound => exact hfound

theorem Conversation.Shift.step_mem_coming {early : Bool} {g : FlowGraph} {c c' : Conversation}
    {p p' : Option Pause} (h : Shift early (Entry.ComesFrom g) c p c' p') {s : Step}
    (hs : .step s ∈ c'.coming p') : .step s ∈ c.coming p ∨ g.step? s.id = some s :=
  (h.mem_coming hs).imp_right Entry.ComesFrom.step?_eq_some

namespace Walker

theorem comesFrom_of_mem_walk (w : Walker) (cursor : StepId) (handle input : Option String)
    (bubbleShown : Bool) (hops : Nat) :
    ∀ e ∈ (w.walk cursor handle input bubbleShown hops).entries, e.ComesFrom w.graph := by
  obtain ⟨chain, next?, hroute⟩ := w.exists_route hops ⟨cursor, handle, input, bubbleShown⟩
  intro e he
  rcases List.mem_append.mp (hroute.entries_eq ▸ he) with he | he
  · obtain ⟨s, hs, rfl⟩ := List.mem_map.mp he
    exact .step (step?_of_mem_reached ((listed_sublist _ _).subset hs))
  · obtain ⟨i, -, rfl⟩ := Option.map_eq_some_iff.mp (Option.mem_toList.mp he)
    exact .interceptor i

end Walker

namespace Session

theorem comesFrom_of_mem_planWalk (s : Session) (r : TraversalRequest) {before : List Entry}
    (hbefore : ∀ e ∈ before, e.ComesFrom s.graph) :
    ∀ e ∈ (s.planWalk r before).batch, e.ComesFrom s.graph := by
  intro e he
  rcases List.mem_append.mp he with he | he
  · exact hbefore e he
  · exact s.walker.comesFrom_of_mem_walk _ _ _ _ _ e he

/-- What an act dispatches comes from the flow, as it is then, or from the user. -/
theorem comesFrom_of_mem_plan (s : Session) (a : Act) :
    ∀ e ∈ (s.plan a).batch, e.ComesFrom s.graph := by
  rcases s.plan_cases a with ⟨_, -, hp⟩ | ⟨r, -, hp⟩ | ⟨text, r, -, hp⟩ | ⟨choice, -, hp⟩
  · rw [hp]
    exact List.forall_mem_nil _
  · rw [hp]
    exact s.comesFrom_of_mem_planWalk r (List.forall_mem_nil _)
  · rw [hp]
    refine comesFrom_of_mem_planWalk (s.bubble text).2 r fun e he => ?_
    rw [List.mem_singleton.mp he]
    exact .userMessage _
  · simp only [hp, planAnswer, planResumption]
    cases (s.state.resolve choice s.mint.interceptorId).1 with
    | resume origin handle written =>
        exact comesFrom_of_mem_planWalk { s with state := _, mint := _ } _ (List.forall_mem_nil _)
    | stillMissing question written =>
        intro e he
        rw [List.mem_singleton.mp he]
        exact .interceptor question
    | noBranch written => exact List.forall_mem_nil _
    | stale => exact List.forall_mem_nil _

/-! ### Moves -/

theorem Sound.pause?_stop {s : Session} (hs : s.Sound) (now : Timestamp) :
    (s.stop now).session.pause? = none := by
  rcases s.stop_cases now with ⟨-, he⟩ | ⟨-, he⟩ <;> rw [he] <;> exact hs.pauseOf?_next

theorem Sound.pause?_reset {s : Session} (hs : s.Sound) : s.reset.session.pause? = none :=
  hs.pauseOf?_next

/-- A stop that finds nothing on its way leaves the conversation alone, and any other halts it. -/
theorem Sound.state_stop_cases {s : Session} (hs : s.Sound) (now : Timestamp) :
    (s.state.isActive = false ∧ (s.stop now).result = false ∧
        (s.stop now).session.state = s.state) ∨
      (s.state.isActive = true ∧ (s.stop now).result = true ∧
        (s.stop now).session.state =
          s.state.halt (s.mint.feedback Conversation.stoppedText now)) := by
  have hdelivering := hs.atPause.isDelivering_eq
  cases ha : s.state.isActive with
  | false => exact .inl ⟨rfl, by simp [stop, Conversation.stop?, hdelivering, ha]⟩
  | true => exact .inr ⟨rfl, by simp [stop, Conversation.stop?, hdelivering, ha]⟩

section Move

variable {early : Bool} {I : Conversation → Option Pause → Prop} {P : Entry → Prop}
  (hshift : ∀ {c p c' p'}, I c p → Conversation.Shift early P c p c' p' → I c' p')

include hshift

theorem plan_induction {s : Session} (a : Act) (h : I s.state s.pause?) :
    I (s.plan a).session.state (s.plan a).session.pause? := by
  have hwalk : ∀ (s : Session) r before, I s.state s.pause? →
      I (s.planWalk r before).session.state s.pause? :=
    fun s r before h => hshift h (.assign _ _ _ _)
  rcases s.plan_cases a with ⟨_, -, hp⟩ | ⟨r, -, hp⟩ | ⟨text, r, -, hp⟩ | ⟨choice, -, hp⟩
  · rw [hp]
    exact h
  · rw [hp]
    exact hwalk s r [] h
  · rw [hp]
    exact hwalk (s.bubble text).2 r _ h
  · have hresolve : I (s.state.resolve choice s.mint.interceptorId).2 s.pause? := by
      unfold Conversation.resolve
      split
      · exact h
      · next i c' ht =>
        have htaken := hshift h (.take _ _ _ i c' ht)
        split
        · exact htaken
        · exact hshift htaken (.assign _ _ _ c'.cursor)
    rw [hp]
    simp only [planAnswer]
    cases (s.state.resolve choice s.mint.interceptorId).1 with
    | resume origin handle written =>
        exact hwalk { s with state := _, mint := _ } _ _ hresolve
    | _ => exact hresolve

section Batch

variable {s : Session} (hs : s.Sound) {batch : List Entry} (hbatch : ∀ e ∈ batch, P e)
  {clock : Bool} (hturn : early = true ∨ clock = true ∨ s.pause? = none) (h : I s.state s.pause?)

include hs hbatch hturn h

theorem Sound.hand_induction :
    I (s.hand batch clock).1.state (s.hand batch clock).1.pause? := by
  rcases s.hand_cases batch clock with ⟨ht, he⟩ | ⟨-, he⟩
  · have hplace : early = true ∨ s.pause? = none :=
      hturn.imp_right fun hturn => hs.pause?_of_inTurn hturn ht
    have happly : ∀ (es : List Entry) (c : Conversation), (∀ e ∈ es, P e) → I c s.pause? →
        I (c.apply es) s.pause? := by
      intro es
      induction es with
      | nil => exact fun c _ hc => hc
      | cons e rest ih =>
          intro c hes hc
          obtain ⟨hentry, hrest⟩ := List.forall_mem_cons.mp hes
          exact ih (c.commitShown e) hrest (hshift hc (.commitShown c _ e hentry hplace))
    rw [he]
    exact happly batch s.state hbatch h
  · have henqueue := hshift h (.enqueue s.state s.pause? batch hbatch)
    rw [he, hs.pause?_deliver, state_deliver]
    exact henqueue

theorem Sound.dispatch_induction :
    I (s.dispatch batch clock).1.state (s.dispatch batch clock).1.pause? := by
  have hsupersede : I s.supersede.1.state s.supersede.1.pause? := by
    unfold supersede
    split
    · next i state hp =>
      obtain ⟨j, -, ht⟩ := Option.bind_eq_some_iff.mp hp
      exact hshift h (.take _ _ _ i state ht)
    · exact h
  unfold dispatch
  split
  · exact h
  · split
    · exact (sound_supersede hs).hand_induction hshift hbatch (s.pause?_supersede ▸ hturn)
        hsupersede
    · exact hs.hand_induction hshift hbatch hturn h

end Batch

/-- What shifts keep, and a run that goes on, is kept by the moves that carry the conversation on.
-/
theorem Sound.onward_induction {s : Session} (hs : s.Sound) {m : Move} (hm : m.isOnward = true)
    (hturn : early = true ∨ s.ComesInTurn m)
    (hbatch : ∀ a clock, m = .act a clock → ∀ e ∈ (s.plan a).batch, P e)
    (hrun : ∀ p, I s.state (some p) →
      I (s.state.resumeFrom s.live p).state (s.state.resumeFrom s.live p).pause)
    (h : I s.state s.pause?) : I (s.perform m).session.state (s.perform m).session.pause? := by
  cases m with
  | act a clock =>
      simp only [perform, Response.session_map, act_eq_carryOut]
      exact (sound_plan a hs).dispatch_induction hshift (hbatch a clock rfl)
        (hturn.imp_right hs.inTurn_plan) (plan_induction hshift a h)
  | setVariable name value => exact hshift h (.assign _ _ _ s.state.cursor)
  | proceed run =>
      simp only [perform]
      rcases s.proceed_cases run with he | ⟨p, rfl, hp, he⟩ | ⟨hr, he⟩
      · rw [he]
        exact h
      · rw [hp] at h
        rw [he, hs.pause?_moveRun hp]
        exact hrun p h
      · rw [he, pause?_moveRun_of_ne hr]
        exact h
  | _ => cases hm

/-- What strides and shifts keep is kept by the moves that carry the conversation on. -/
theorem Sound.perform_induction {s : Session} (hs : s.Sound) {m : Move} (hm : m.isOnward = true)
    (hturn : early = true ∨ s.ComesInTurn m)
    (hbatch : ∀ a clock, m = .act a clock → ∀ e ∈ (s.plan a).batch, P e)
    (hstride : ∀ {c p c' p'}, I c (some p) → Conversation.Stride c p c' p' → I c' p')
    (h : I s.state s.pause?) : I (s.perform m).session.state (s.perform m).session.pause? :=
  hs.onward_induction hshift hm hturn hbatch
    (fun p => Conversation.resumeFrom_induction s.live hstride p) h

/-- What strides and shifts keep is kept by all moves but edits, if a stop and a reset keep it. -/
theorem Sound.move_induction {s : Session} (hs : s.Sound) {m : Move}
    (hm : ∀ graph, m ≠ .setGraph graph) (hturn : early = true ∨ s.ComesInTurn m)
    (hbatch : ∀ a clock, m = .act a clock → ∀ e ∈ (s.plan a).batch, P e)
    (hstride : ∀ {c p c' p'}, I c (some p) → Conversation.Stride c p c' p' → I c' p')
    (hstop : ∀ now, m = .stop now → ∀ marker, I (s.state.halt marker) none)
    (hreset : m = .reset → I .empty none)
    (h : I s.state s.pause?) : I (s.perform m).session.state (s.perform m).session.pause? := by
  cases m with
  | stop now =>
      simp only [perform, Response.session_map, hs.pause?_stop]
      rcases hs.state_stop_cases now with ⟨ha, -, he⟩ | ⟨-, -, he⟩
      · rw [hs.pause?_of_not_active ha] at h
        rw [he]
        exact h
      · rw [he]
        exact hstop now rfl _
  | reset =>
      simp only [perform, Response.session_map, hs.pause?_reset]
      exact hreset rfl
  | setGraph graph => exact absurd rfl (hm graph)
  | _ => exact hs.perform_induction hshift rfl hturn hbatch hstride h

end Move

/-- What strides, shifts, stops and resets keep holds at the end of a course without edits. -/
theorem Sound.unedited_induction {s : Session} (hs : s.Sound) {early : Bool}
    {I : Conversation → Option Pause → Prop} {moves : List Move}
    (hedits : ∀ graph, .setGraph graph ∉ moves)
    (hturn : early = true ∨ s.Throughout ComesInTurn moves)
    (hshift : ∀ {c p c' p'}, I c p →
      Conversation.Shift early (Entry.ComesFrom s.graph) c p c' p' → I c' p')
    (hstride : ∀ {c p c' p'}, I c (some p) → Conversation.Stride c p c' p' → I c' p')
    (hstop : ∀ {c p} marker, I c p → I (c.halt marker) none) (hreset : I .empty none)
    (h : I s.state s.pause?) :
    (s.after moves).graph = s.graph ∧ I (s.after moves).state (s.after moves).pause? := by
  refine course_induction (P := fun t => t.graph = s.graph ∧ I t.state t.pause?) moves ⟨rfl, h⟩
    fun earlier m later hsplit ⟨hgraph, hearlier⟩ => ?_
  have hm : ∀ graph, m ≠ .setGraph graph := by
    rintro graph rfl
    exact hedits graph (hsplit ▸ List.mem_append_cons_self)
  rw [hsplit] at hturn
  rw [← hgraph] at hshift
  exact ⟨(graph_perform _ hm).trans hgraph, (hs.after earlier).move_induction hshift hm
    (hturn.imp_right Throughout.at_move) (fun a _ _ => comesFrom_of_mem_plan _ a) hstride
    (fun _ _ marker => hstop marker hearlier) (fun _ => hreset) hearlier⟩

end Session

end Dialogue
