import Dialogue.Proofs.Session.Mirror

/-! What the events tell of the phase. Whoever follows them knows the phase that was announced last,
and this is the phase of the conversation, but that nothing is announced when the question that is
waited for goes. The conversation waits for a question from when it is asked until a turn is on its
way or a delivery stopped. -/

namespace Dialogue

namespace Event

def phase? : Event → Option Phase
  | phaseChanged _ phase => some phase
  | _ => none

def lastPhase? (events : List Event) : Option Phase := (events.filterMap phase?).getLast?

def raises : Event → Bool
  | interceptorRaised .. => true
  | _ => false

/-- Whether the event draws the conversation off a question that waits: a turn is on its way, or a
delivery was stopped. -/
def distracts : Event → Bool
  | phaseChanged _ phase => !phase.isRest
  | stopped .. => true
  | _ => false

/-- Whether the conversation was drawn off the question asked last. -/
def distracted (events : List Event) : Bool :=
  events.foldl (fun before event => !event.raises && (before || event.distracts)) false

def isAside : Event → Bool
  | phaseChanged .. | interceptorRaised .. | stopped .. => false
  | _ => true

theorem lastPhase?_append (events more : List Event) :
    lastPhase? (events ++ more) = (lastPhase? more).or (lastPhase? events) := by
  simp [lastPhase?, List.getLast?_append]

theorem lastPhase?_concat (events : List Event) (event : Event) :
    lastPhase? (events ++ [event]) = event.phase?.or (lastPhase? events) := by
  rw [lastPhase?_append]
  cases h : event.phase? <;> simp [lastPhase?, h]

theorem distracted_concat (events : List Event) (event : Event) :
    distracted (events ++ [event]) =
      (!event.raises && (distracted events || event.distracts)) := by
  simp [distracted]

theorem lastPhase?_append_aside (events : List Event) {more : List Event}
    (h : ∀ event ∈ more, event.isAside = true) :
    lastPhase? (events ++ more) = lastPhase? events := by
  have hnone : more.filterMap phase? = [] := by
    rw [List.filterMap_eq_nil_iff]
    intro event hevent
    have haside := h event hevent
    cases event with
    | phaseChanged => cases haside
    | _ => rfl
  rw [lastPhase?_append, lastPhase?, hnone]
  rfl

theorem distracted_append_aside (events : List Event) {more : List Event}
    (h : ∀ event ∈ more, event.isAside = true) :
    distracted (events ++ more) = distracted events := by
  induction more generalizing events with
  | nil => rw [List.append_nil]
  | cons event rest ih =>
      obtain ⟨haside, hrest⟩ := List.forall_mem_cons.mp h
      rw [List.append_cons, ih _ hrest, distracted_concat]
      cases event with
      | phaseChanged | interceptorRaised | stopped => cases haside
      | _ => simp [raises, distracts]

theorem lastPhase?_phaseChanged (events : List Event) (run : Run) (phase : Phase) :
    lastPhase? (events ++ [.phaseChanged run phase]) = some phase := by
  rw [lastPhase?_concat]
  rfl

theorem distracted_phaseChanged (events : List Event) (run : Run) (phase : Phase) :
    distracted (events ++ [.phaseChanged run phase]) =
      (distracted events || !phase.isRest) := by
  rw [distracted_concat]
  rfl

end Event

open Event (lastPhase? distracted)

namespace Conversation

/-- The conversation as the events so far have it. -/
structure AsHeard (c : Conversation) (events : List Event) : Prop where
  unheard : lastPhase? events = none → c.phase = .idle
  phase : ∀ phase, lastPhase? events = some phase → c.phase = phase ∨
    phase = .awaitingInterceptor ∧ c.phase = .idle ∧ Entry.questions c.history = []
  waiting : c.phase = .awaitingInterceptor ↔
    Entry.questions c.history ≠ [] ∧ distracted events = false

/-- Where nothing is on its way, the pending question is in history. -/
theorem pending?_of_queue {c : Conversation} (h : c.queue = []) :
    c.pending? = (Entry.questions c.history).head? := by
  rw [pending?, interceptors_eq, h, Entry.questions_nil, List.append_nil]

theorem asHeard_empty : empty.AsHeard [] :=
  ⟨fun _ => rfl, nofun, by decide⟩

variable {c c' : Conversation} {events more : List Event}

/-- Waiting for an answer is always announced. -/
theorem AsHeard.lastPhase?_of_waiting (h : c.AsHeard events)
    (hw : c.phase = .awaitingInterceptor) : lastPhase? events = some .awaitingInterceptor := by
  cases hl : lastPhase? events with
  | none => exact absurd (h.unheard hl) (by simp [hw])
  | some phase =>
      rcases h.phase phase hl with hp | ⟨-, hp, -⟩
      · rw [← hp, hw]
      · rw [hw] at hp
        cases hp

/-- Where neither the phase nor the questions in history change, nothing may be told of the phase.
-/
theorem AsHeard.aside (h : c.AsHeard events) (hphase : c'.phase = c.phase)
    (hquestions : Entry.questions c'.history = Entry.questions c.history)
    (hmore : ∀ event ∈ more, event.isAside = true) : c'.AsHeard (events ++ more) := by
  have hlast := Event.lastPhase?_append_aside events hmore
  have hdistracted := Event.distracted_append_aside events hmore
  refine ⟨?_, ?_, ?_⟩
  · rw [hlast, hphase]
    exact h.unheard
  · rw [hlast, hphase, hquestions]
    exact h.phase
  · rw [hdistracted, hphase, hquestions]
    exact h.waiting

/-- Nothing at all need be told then. -/
theorem AsHeard.silent (h : c.AsHeard events) (hphase : c'.phase = c.phase)
    (hquestions : Entry.questions c'.history = Entry.questions c.history) :
    c'.AsHeard (events ++ []) :=
  h.aside hphase hquestions (List.forall_mem_nil _)

theorem AsHeard.of_phaseChanged (run : Run) {phase : Phase} (hphase : c.phase = phase)
    (hwaiting : phase = .awaitingInterceptor ↔ Entry.questions c.history ≠ [] ∧
      distracted (events ++ [.phaseChanged run phase]) = false) :
    c.AsHeard (events ++ [.phaseChanged run phase]) := by
  have hlast := Event.lastPhase?_phaseChanged events run phase
  refine ⟨fun hl => ?_, fun other hl => .inl ?_, hphase ▸ hwaiting⟩
  · rw [hlast] at hl
    cases hl
  · rw [hlast] at hl
    exact hphase.trans (Option.some.inj hl)

/-- A change of phase that is announced. It may end the waiting for a question only where a turn is
on its way. -/
theorem AsHeard.change (h : c.AsHeard events) (run : Run) {phase : Phase}
    (hphase : c'.phase = phase)
    (hquestions : Entry.questions c'.history = Entry.questions c.history)
    (hwaiting : phase.isRest = false ∨
      (phase = .awaitingInterceptor ↔ c.phase = .awaitingInterceptor)) :
    c'.AsHeard (events ++ [.phaseChanged run phase]) := by
  refine .of_phaseChanged run hphase ?_
  rw [Event.distracted_phaseChanged, hquestions]
  cases hr : phase.isRest with
  | false =>
      have hother : phase ≠ .awaitingInterceptor := by
        rintro rfl
        cases hr
      simp [hother]
  | true => simp [hwaiting.resolve_left (by simp [hr]), h.waiting]

/-- A question that is committed is waited for. -/
theorem asHeard_raised (run : Run) (i : Interceptor) (hphase : c.phase = .awaitingInterceptor)
    (hquestions : Entry.questions c.history ≠ []) :
    c.AsHeard (events ++ (Entry.interceptor i).raised run) := by
  have hraised : (Entry.interceptor i).raised run = [.interceptorRaised run i.id i.variableName
    i.stepId, .phaseChanged run .awaitingInterceptor] := rfl
  rw [hraised, List.append_cons]
  refine .of_phaseChanged run hphase ?_
  rw [Event.distracted_phaseChanged, Event.distracted_concat]
  simp [hquestions, Event.raises, Phase.isRest]

/-- An entry that is committed is as it is announced, with what is shown of it announced as well or
not. -/
theorem AsHeard.committed (h : c.AsHeard events) (run : Run) (e : Entry) (more : List Event)
    (hphase : c'.phase = (c.commit e).phase) (hhistory : c'.history = c.history ++ [e])
    (hmore : ∀ event ∈ more, event.isAside = true) :
    c'.AsHeard (events ++ (more ++ e.raised run)) := by
  rw [← List.append_assoc]
  cases e with
  | interceptor i =>
      refine asHeard_raised run i hphase ?_
      simp [hhistory, Entry.questions_cons, Entry.interceptor?]
  | _ =>
      have hquestions : Entry.questions c'.history = Entry.questions c.history := by
        simp [hhistory, Entry.questions_cons, Entry.interceptor?]
      have hshown : c'.AsHeard (events ++ more) := h.aside hphase hquestions hmore
      exact hshown.silent rfl rfl

theorem AsHeard.forget (h : c.AsHeard events) (hphase : c'.phase = c.phaseWithout)
    (hnone : Entry.questions c'.history = []) : c'.AsHeard events := by
  have hother : c'.phase ≠ .awaitingInterceptor := by
    rw [hphase]
    exact c.phaseWithout_ne
  refine ⟨fun hl => ?_, fun phase hl => ?_, by simp [hother, hnone]⟩
  · rw [hphase, phaseWithout, h.unheard hl]
    rfl
  · by_cases hw : c.phase = .awaitingInterceptor
    · obtain rfl : .awaitingInterceptor = phase :=
        Option.some.inj ((h.lastPhase?_of_waiting hw).symm.trans hl)
      exact .inr ⟨rfl, by simp [hphase, phaseWithout, hw], hnone⟩
    · rw [hphase, phaseWithout, if_neg hw]
      rcases h.phase phase hl with hp | ⟨hp, hidle, -⟩
      · exact .inl hp
      · exact .inr ⟨hp, hidle, hnone⟩

/-! ### Runs -/

theorem AsHeard.enter (h : c.AsHeard events) (run : Run) {phase : Phase}
    (hturn : phase.isRest = false) :
    (enter run c phase).1.AsHeard (events ++ (enter run c phase).2) := by
  by_cases hp : c.phase = phase
  · have hnone : (Conversation.enter run c phase).2 = [] := by simp [Conversation.enter, hp]
    rw [hnone]
    exact h.silent hp.symm rfl
  · have hone : (Conversation.enter run c phase).2 = [.phaseChanged run phase] := by
      simp [Conversation.enter, hp]
    rw [hone]
    exact h.change run rfl rfl (.inl hturn)

/-- A beat announces what it does to the phase. -/
theorem Beat.asHeard {run : Run} {p : Pause} {p' : Option Pause} (hbeat : Beat run c p more c' p')
    (h : c.AsHeard events) : c'.AsHeard (events ++ more) := by
  have hprogress : ∀ (c : Conversation) d, ∀ event ∈ c.progress run d, event.isAside = true := by
    intro c d event hevent
    obtain ⟨w, -, rfl⟩ := List.mem_map.mp hevent
    rfl
  cases hbeat with
  | commit e rest hqueue hturn => exact h.committed run e [_] rfl rfl (by simp [Event.isAside])
  | take id components rest hqueue =>
      have hc : { c with queue := rest }.AsHeard events := ⟨h.unheard, h.phase, h.waiting⟩
      exact hc.enter run rfl
  | settle hqueue =>
      -- A row of beats ends in the phase in which it waits for an answer, or else idle.
      refine h.change run rfl rfl (.inr ?_)
      simp
  | openTurn id components =>
      exact h.committed run (.step (.turn id components)) [_] rfl rfl (by simp [Event.isAside])
  | pause d rest => exact h.enter run rfl
  | beginText d rest ch chars htext => exact h.change run rfl rfl (.inl rfl)
  | beginWhole d rest htext => exact h.enter run rfl
  | reveal d rest => exact h.aside rfl rfl (by simp [Event.isAside])
  | push d ch ch' chars rest => exact h.aside rfl rfl (hprogress _ d)
  | finish d ch rest =>
      refine h.aside rfl rfl fun event hevent => ?_
      rcases List.mem_append.mp hevent with hevent | hevent
      · exact hprogress _ d event hevent
      · rw [List.mem_singleton.mp hevent]
        rfl

theorem Beats.asHeard {run : Run} {p : Pause} {p' : Option Pause}
    (hbeats : Beats run c p more c' p') (h : c.AsHeard events) : c'.AsHeard (events ++ more) := by
  induction hbeats generalizing events with
  | last beat => exact beat.asHeard h
  | next beat _ ih =>
      rw [← List.append_assoc]
      exact ih (beat.asHeard h)

/-! ### What the user does -/

theorem AsHeard.take? (h : c.AsHeard events) (hasks : c.AsksOnce) {id : String} {i : Interceptor}
    (ht : c.take? id = some (i, c')) : c'.AsHeard events := by
  have hnone := hasks.interceptors_take? ht
  rw [interceptors_eq, List.append_eq_nil_iff] at hnone
  have hphase : c'.phase = c.phaseWithout := by rw [take?_frame ht]
  exact h.forget hphase hnone.1

theorem AsHeard.apply (h : c.AsHeard events) (run : Run) (batch : List Entry) :
    (c.apply batch).AsHeard (events ++ batch.flatMap (Entry.announcedShown run)) := by
  induction batch generalizing c events with
  | nil => exact h.silent rfl rfl
  | cons e rest ih =>
      rw [List.flatMap_cons, ← List.append_assoc, apply_cons]
      refine ih (h.committed run e _ rfl rfl fun event hevent => ?_)
      rcases List.mem_cons.mp hevent with rfl | hevent
      · rfl
      · obtain ⟨d, -, rfl⟩ := List.mem_map.mp hevent
        rfl

theorem asHeard_halt (c : Conversation) (marker : Feedback) (events : List Event) (run : Run)
    (truncated : Option ComponentId) (id : String) (kind : EntryKind) :
    (c.halt marker).AsHeard (events ++
      [.stopped run truncated, .stepCommitted run id kind, .phaseChanged run .stopped]) := by
  rw [List.append_cons, List.append_cons]
  refine .of_phaseChanged run rfl ?_
  rw [Event.distracted_phaseChanged, Event.distracted_concat, Event.distracted_concat]
  simp [Event.raises, Event.distracts]

/-- An edit takes the question that is waited for away, or leaves the phase alone. -/
theorem AsHeard.resync (h : c.AsHeard events) (hasks : c.AsksOnce) (g : FlowGraph) :
    (c.resync g).AsHeard events := by
  have hquestions : Entry.questions (c.resync g).history =
      Entry.questions (c.history.filterMap (Entry.patch? g)) := Entry.questions_recut c.cuts _
  have hkept : Entry.questions c.history = [] → Entry.questions (c.resync g).history = [] := by
    intro hnone
    have hless := Entry.length_questions_patch g c.history
    rw [← hquestions, hnone] at hless
    exact List.eq_nil_of_length_eq_zero (Nat.le_zero.mp hless)
  cases hany : ((c.resync g).history ++ (c.resync g).queue).any fun e => e.interceptor?.isSome with
  | false =>
      have hphase : (c.resync g).phase = c.phaseWithout := by
        simp only [Conversation.resync] at hany ⊢
        simp [hany]
      refine h.forget hphase (List.filterMap_eq_nil_iff.mpr fun e he => ?_)
      have hnone := List.any_eq_false.mp hany e (List.mem_append_left _ he)
      simpa using hnone
  | true =>
      have hphase : (c.resync g).phase = c.phase := by
        simp only [Conversation.resync] at hany ⊢
        simp [hany]
      have hw := (hasks.resync g).waiting
      rw [hphase] at hw
      refine ⟨?_, ?_, ?_⟩
      · rw [hphase]
        exact h.unheard
      · rw [hphase]
        intro phase hl
        rcases h.phase phase hl with hp | ⟨hp, hidle, hnone⟩
        · exact .inl hp
        · exact .inr ⟨hp, hidle, hkept hnone⟩
      · rw [hphase]
        constructor
        · intro hp
          obtain ⟨i, hi⟩ := hw hp
          exact ⟨List.ne_nil_of_mem (Entry.mem_questions.mpr hi), (h.waiting.mp hp).2⟩
        · rintro ⟨hsome, hcalm⟩
          exact h.waiting.mpr ⟨fun hnone => hsome (hkept hnone), hcalm⟩

end Conversation

namespace Session

variable {s : Session} {events : List Event}

theorem asHeard_supersede (h : s.state.AsHeard events) (hasks : s.state.AsksOnce) :
    s.supersede.1.state.AsHeard (events ++ s.supersede.2) := by
  unfold supersede
  split
  · next i state hp =>
    obtain ⟨j, -, ht⟩ := Option.bind_eq_some_iff.mp hp
    exact (h.take? hasks ht).aside rfl rfl (by simp [inDelivery, Event.isAside])
  · exact h.silent rfl rfl

theorem asHeard_hand (h : s.state.AsHeard events) (batch : List Entry) (clock : Bool) :
    (s.hand batch clock).1.state.AsHeard (events ++ (s.hand batch clock).2) := by
  unfold hand
  cases s.config.simulates with
  | false => exact h.apply s.live batch
  | true =>
      cases clock with
      | false =>
          simp only [Bool.not_true, Bool.false_eq_true, if_false]
          rw [List.append_cons]
          exact (h.aside rfl rfl (by simp [inDelivery, Event.isAside])).apply s.live batch
      | true =>
          have hdelivered : (s.deliver batch).state.AsHeard (events ++ []) := by
            rw [state_deliver]
            exact h.silent rfl rfl
          exact hdelivered

theorem asHeard_dispatch (h : s.state.AsHeard events) (hasks : s.state.AsksOnce)
    (batch : List Entry) (clock : Bool) :
    (s.dispatch batch clock).1.state.AsHeard (events ++ (s.dispatch batch clock).2) := by
  unfold dispatch
  split
  · exact h.silent rfl rfl
  · split
    · rw [← List.append_assoc]
      exact asHeard_hand (asHeard_supersede h hasks) batch clock
    · exact asHeard_hand h batch clock

theorem asHeard_plan (h : s.state.AsHeard events) (hasks : s.state.AsksOnce) (a : Act) :
    (s.plan a).session.state.AsHeard (events ++ (s.plan a).notice) := by
  have hnotice : ∀ event ∈ (s.plan a).notice, event.isAside = true := by
    intro event hevent
    have hrun := s.run?_of_mem_notice a event hevent
    cases event with
    | phaseChanged | interceptorRaised | stopped => cases hrun
    | _ => rfl
  suffices hplan : (s.plan a).session.state.AsHeard events from hplan.aside rfl rfl hnotice
  have hassign : ∀ {c : Conversation} store cursor, c.AsHeard events →
      { c with store, cursor }.AsHeard events := fun _ _ h => ⟨h.unheard, h.phase, h.waiting⟩
  rcases s.plan_cases a with ⟨_, -, hp⟩ | ⟨r, -, hp⟩ | ⟨text, r, -, hp⟩ | ⟨choice, -, hp⟩
  · rw [hp]
    exact h
  · rw [hp]
    exact hassign s.state.store _ h
  · rw [hp]
    exact hassign s.state.store _ h
  · have hresolved : (s.state.resolve choice s.mint.interceptorId).2.AsHeard events := by
      unfold Conversation.resolve
      split
      · exact h
      · next i c' ht =>
        have htaken := h.take? hasks ht
        split
        · exact htaken
        · exact hassign _ c'.cursor htaken
    simp only [hp, planAnswer]
    cases (s.state.resolve choice s.mint.interceptorId).1 with
    | resume origin handle written => exact hassign _ _ hresolved
    | _ => exact hresolved

/-- What a move tells is how it leaves the phase, but for the question that goes. -/
theorem asHeard_perform (hasks : s.state.AsksOnce) (h : s.state.AsHeard events) (m : Move) :
    (s.perform m).session.state.AsHeard (events ++ (s.perform m).events) := by
  cases m with
  | act a clock =>
      have hdispatch := asHeard_dispatch (asHeard_plan h hasks a) (asksOnce_plan a hasks)
        (s.plan a).batch clock
      rw [List.append_assoc] at hdispatch
      simp only [perform, act_eq_carryOut]
      exact hdispatch
  | stop now =>
      cases hd : s.state.isDelivering with
      | false =>
          simp only [perform, stop, Conversation.stop?, hd]
          exact h.silent rfl rfl
      | true =>
          simp only [perform, stop, Conversation.stop?, hd]
          exact Conversation.asHeard_halt s.state _ events _ _ _ _
  | reset =>
      refine .of_phaseChanged s.live.next rfl ?_
      simp [perform, reset, Conversation.empty]
  | setGraph graph => exact (h.resync hasks graph).silent rfl rfl
  | setVariable name value =>
      exact h.aside rfl rfl (by simp [perform, setVariable, Response.map, Event.isAside])
  | proceed run =>
      simp only [perform]
      rcases s.proceed_cases run with he | ⟨p, rfl, hp, he⟩ | ⟨hr, he⟩
      · rw [he]
        exact h.silent rfl rfl
      · rw [he]
        exact (Conversation.beats_resumeFrom s.live s.state p).asHeard h
      · rw [he]
        exact h.silent rfl rfl

theorem asHeard_after (hasks : s.state.AsksOnce) (h : s.state.AsHeard events)
    (moves : List Move) : (s.after moves).state.AsHeard (events ++ s.published moves) := by
  induction moves generalizing s events with
  | nil => exact h.silent rfl rfl
  | cons m rest ih =>
      rw [published, ← List.append_assoc]
      exact ih (asksOnce_perform m hasks) (asHeard_perform hasks h m)

theorem asHeard_ofGraph (graph : FlowGraph) (config : Config) (mint : Mint) (moves : List Move) :
    let fresh := ofGraph graph config mint
    (fresh.after moves).state.AsHeard (fresh.published moves) :=
  asHeard_after (s := ofGraph graph config mint) Conversation.asksOnce_empty
    Conversation.asHeard_empty moves

/-- The phase announced last is the phase of the conversation, but that nothing is announced when
the question that is waited for is answered, replaced or taken away by an edit: then the
conversation is idle. While nothing is delivered, the snapshot shows whether this is so. -/
theorem phase_of_lastPhase? (graph : FlowGraph) (config : Config) (mint : Mint)
    (moves : List Move) (phase : Phase) :
    let fresh := ofGraph graph config mint
    let s := fresh.after moves
    lastPhase? (fresh.published moves) = some phase →
      (s.state.phase = phase ∨ phase = .awaitingInterceptor ∧ s.state.phase = .idle ∧
        Entry.questions s.state.history = []) ∧
      (s.state.isActive = false → s.snapshot.phase =
        if phase = .awaitingInterceptor ∧ s.snapshot.pending = none then .idle else phase) := by
  intro fresh s hlast
  have hsound : s.Sound := (sound_ofGraph graph config mint).after moves
  have hasks : s.state.AsksOnce := asksOnce_after moves Conversation.asksOnce_empty
  have hphase := (asHeard_ofGraph graph config mint moves).phase phase hlast
  refine ⟨hphase, fun hactive => ?_⟩
  have hpending := Conversation.pending?_of_queue
    (hsound.atPause.queue (hsound.pause?_of_not_active hactive))
  simp only [snapshot, Conversation.snapshot, hpending, List.head?_eq_none_iff]
  rcases hphase with hp | ⟨rfl, hidle, hnone⟩
  · rw [hp, if_neg]
    rintro ⟨rfl, hnone⟩
    obtain ⟨i, hi⟩ := hasks.waiting hp
    exact List.ne_nil_of_mem (Entry.mem_questions.mpr hi) hnone
  · rw [if_pos ⟨rfl, hnone⟩]
    exact hidle

/-- The welcome ends by waiting for an answer, as announced. -/
theorem phase_of_lastPhase?_welcome :
    let moves : List Move := .act .start true :: List.replicate 5 (.proceed ⟨1⟩)
    let s := (ofGraph welcome (.standard "s") (.ofNonce "n")).after moves
    s.snapshot.phase = .awaitingInterceptor := by
  intro moves s
  have h := (phase_of_lastPhase? welcome (.standard "s") (.ofNonce "n") moves
    .awaitingInterceptor (by decide +kernel)).2 (by decide +kernel)
  have hpending : s.snapshot.pending ≠ none := by decide +kernel
  rwa [if_neg (fun hnone => hpending hnone.2)] at h

/-- Once the welcome is answered at once, it is idle and still announced as waiting. -/
theorem answer_goes_unannounced :
    let fresh := ofGraph welcome (.instant "s") (.ofNonce "n")
    let moves : List Move := [.act .start false, .act (.answer "good") false]
    (fresh.after moves).state.isActive = false ∧
      lastPhase? (fresh.published moves) = some .awaitingInterceptor ∧
      (fresh.after moves).snapshot.phase = .idle := by
  decide +kernel

end Session

end Dialogue
