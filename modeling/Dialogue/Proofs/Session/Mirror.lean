import Dialogue.Proofs.Session.Growth

/-! Those who only listen know all of history. Every entry is reported once, in the order in which
history gains them, by whichever path it comes: a run, a batch applied at once, or a stop. With the
report of a question comes, next, what it asks for. -/

namespace Dialogue

namespace Event

def isReport : Event → Bool
  | stepCommitted .. | interceptorRaised .. => true
  | _ => false

/-- The entry that the event reports, by its label. -/
def committed? : Event → Option (String × EntryKind)
  | stepCommitted _ id kind => some (id, kind)
  | _ => none

/-- Events that report just the entries of a list, in order, each question with what it asks. -/
inductive Tells : List Event → List Entry → Prop where
  | nil : Tells [] []
  | quiet {event : Event} {events : List Event} {es : List Entry} (hquiet : event.isReport = false)
      (rest : Tells events es) : Tells (event :: events) es
  | committed {events : List Event} {es : List Entry} (run : Run) (e : Entry)
      (hother : e.isQuestion = false) (rest : Tells events es) :
      Tells (.stepCommitted run e.id e.kind :: events) (e :: es)
  | raised {events : List Event} {es : List Entry} (run : Run) (i : Interceptor)
      (rest : Tells events es) :
      Tells (.stepCommitted run i.id .interceptor ::
        .interceptorRaised run i.id i.variableName i.stepId :: events) (.interceptor i :: es)

namespace Tells

theorem append {events more : List Event} {es es' : List Entry} (h : Tells events es)
    (hmore : Tells more es') : Tells (events ++ more) (es ++ es') := by
  induction h with
  | nil => exact hmore
  | quiet hquiet _ ih => exact .quiet hquiet ih
  | committed run e hother _ ih => exact .committed run e hother ih
  | raised run i _ ih => exact .raised run i ih

theorem of_quiet {events : List Event} (h : ∀ event ∈ events, event.isReport = false) :
    Tells events [] := by
  induction events with
  | nil => exact .nil
  | cons event rest ih =>
      obtain ⟨hevent, hrest⟩ := List.forall_mem_cons.mp h
      exact .quiet hevent (ih hrest)

theorem filterMap_committed? {events : List Event} {es : List Entry} (h : Tells events es) :
    events.filterMap committed? = es.map Entry.label := by
  induction h with
  | nil => rfl
  | @quiet event events es hquiet _ ih =>
      have hnone : event.committed? = none := by
        cases event with
        | stepCommitted run id kind => cases hquiet
        | _ => rfl
      rw [List.filterMap_cons_none hnone, ih]
  | committed run e hother _ ih => exact congrArg (List.cons e.label) ih
  | raised run i _ ih => exact congrArg (List.cons (Entry.interceptor i).label) ih

end Tells

end Event

open Event (Tells)

namespace Entry

theorem tells_announced (run : Run) (e : Entry) : Tells (e.announced run) [e] := by
  cases e with
  | interceptor i => exact .raised run i (.quiet rfl .nil)
  | step s => exact .committed run (.step s) rfl .nil
  | feedback f => exact .committed run (.feedback f) rfl .nil
  | userMessage m => exact .committed run (.userMessage m) rfl .nil

theorem tells_announcedShown (run : Run) (e : Entry) : Tells (e.announcedShown run) [e] := by
  cases e with
  | interceptor i => exact .raised run i (.quiet rfl .nil)
  | step s =>
      have hreveals : ∀ event ∈ s.components.map fun d => Event.componentRevealed run d.id,
          event.isReport = false := by
        intro event hevent
        obtain ⟨d, -, rfl⟩ := List.mem_map.mp hevent
        rfl
      exact .committed run (.step s) rfl ((Tells.of_quiet hreveals).append .nil)
  | feedback f => exact .committed run (.feedback f) rfl .nil
  | userMessage m => exact .committed run (.userMessage m) rfl .nil

theorem tells_flatMap_announcedShown (run : Run) (batch : List Entry) :
    Tells (batch.flatMap (announcedShown run)) batch := by
  induction batch with
  | nil => exact .nil
  | cons e rest ih => exact (e.tells_announcedShown run).append ih

end Entry

namespace Conversation

theorem tells_enter (run : Run) (c : Conversation) (phase : Phase) :
    Tells (enter run c phase).2 [] := by
  unfold enter
  split
  · exact .nil
  · exact .quiet rfl .nil

theorem tells_progress (run : Run) (c : Conversation) (d : Component) :
    Tells (c.progress run d) [] := by
  refine .of_quiet fun event hevent => ?_
  obtain ⟨w, -, rfl⟩ := List.mem_map.mp hevent
  rfl

/-- A beat reports what it adds to history. -/
theorem Beat.tells {run : Run} {c c' : Conversation} {p : Pause} {events : List Event}
    {p' : Option Pause} (h : Beat run c p events c' p') :
    ∃ more, c'.history = c.history ++ more ∧ Tells events more := by
  cases h with
  | commit e rest hqueue hturn => exact ⟨[e], rfl, e.tells_announced run⟩
  | openTurn id components => exact ⟨[_], rfl, Entry.tells_announced run _⟩
  | take id components rest hqueue =>
      exact ⟨[], (List.append_nil _).symm, tells_enter run _ _⟩
  | settle hqueue => exact ⟨[], (List.append_nil _).symm, .quiet rfl .nil⟩
  | pause d rest => exact ⟨[], (List.append_nil _).symm, tells_enter run _ _⟩
  | beginText d rest ch chars htext => exact ⟨[], (List.append_nil _).symm, .quiet rfl .nil⟩
  | beginWhole d rest htext => exact ⟨[], (List.append_nil _).symm, tells_enter run _ _⟩
  | reveal d rest => exact ⟨[], (List.append_nil _).symm, .quiet rfl .nil⟩
  | push d ch ch' chars rest => exact ⟨[], (List.append_nil _).symm, tells_progress run _ d⟩
  | finish d ch rest =>
      exact ⟨[], (List.append_nil _).symm, (tells_progress run _ d).append (.quiet rfl .nil)⟩

theorem Beats.tells {run : Run} {c c' : Conversation} {p : Pause} {events : List Event}
    {p' : Option Pause} (h : Beats run c p events c' p') :
    ∃ more, c'.history = c.history ++ more ∧ Tells events more := by
  induction h with
  | last beat => exact beat.tells
  | next beat _ ih =>
      obtain ⟨first, hfirst, htells⟩ := beat.tells
      obtain ⟨more, hmore, htold⟩ := ih
      refine ⟨first ++ more, ?_, htells.append htold⟩
      rw [hmore, hfirst, List.append_assoc]

end Conversation

namespace Session

def published (s : Session) : List Move → List Event
  | [] => []
  | m :: rest => (s.perform m).events ++ (s.perform m).session.published rest

/-- The entries that some moves append to history, in order. -/
def appended (s : Session) : List Move → List Entry
  | [] => []
  | m :: rest => s.appends m ++ (s.perform m).session.appended rest

theorem tells_supersede (s : Session) : Tells s.supersede.2 [] := by
  unfold supersede
  split
  · exact .quiet rfl .nil
  · exact .nil

theorem tells_hand (s : Session) (batch : List Entry) (clock : Bool) :
    Tells (s.hand batch clock).2 (if s.isTimed clock then [] else batch) := by
  unfold hand isTimed
  cases s.config.simulates with
  | false => exact Entry.tells_flatMap_announcedShown s.live batch
  | true =>
      cases clock with
      | false => exact .quiet rfl (Entry.tells_flatMap_announcedShown s.live batch)
      | true => exact .nil

theorem tells_dispatch (s : Session) (batch : List Entry) (clock : Bool) :
    Tells (s.dispatch batch clock).2 (if s.isTimed clock then [] else batch) := by
  unfold dispatch
  split
  · next hempty =>
    rw [List.isEmpty_iff.mp hempty]
    simpa using Tells.nil
  · split
    · have hhand := s.supersede.1.tells_hand batch clock
      rw [isTimed_supersede] at hhand
      exact s.tells_supersede.append hhand
    · exact s.tells_hand batch clock

/-- What is told of an act apart from its batch is told of no run. -/
theorem run?_of_mem_notice (s : Session) (a : Act) :
    ∀ event ∈ (s.plan a).notice, event.run? = none := by
  have hwalk : ∀ (s : Session) r before, ∀ event ∈ (s.planWalk r before).notice,
      event.run? = none := by
    intro s r before
    simp only [planWalk, stopNotice]
    cases (s.walker.traverse s.config.limits r).stop <;> simp [Event.run?, inTraversal]
  have hresumption : ∀ (s : Session) (r : Resumption), ∀ event ∈ (s.planResumption r).notice,
      event.run? = none := by
    intro s r
    cases r with
    | resume origin handle written => exact hwalk _ _ _
    | _ => exact List.forall_mem_nil _
  have hanswer : ∀ choice, ∀ event ∈ (s.planAnswer choice).notice, event.run? = none := by
    intro choice event hevent
    rcases List.mem_append.mp hevent with hevent | hevent
    · obtain ⟨v, -, rfl⟩ := List.mem_map.mp hevent
      rfl
    · exact hresumption _ _ event hevent
  cases a with
  | start =>
      simp only [plan]
      cases s.graph.start? with
      | none => simp [Event.run?, inTraversal]
      | some step => exact hwalk _ _ _
  | send input =>
      simp only [plan]
      split
      · exact List.forall_mem_nil _
      · cases s.state.cursor.or (s.graph.start?.map Step.id) with
        | none => exact List.forall_mem_nil _
        | some origin => exact hwalk _ _ _
  | click origin handle label => exact hwalk _ _ _
  | answer value =>
      simp only [plan]
      cases s.state.pending? with
      | none => exact List.forall_mem_nil _
      | some i => exact hanswer _
  | resolve choice => exact hanswer choice

theorem tells_notice (s : Session) (a : Act) : Tells (s.plan a).notice [] := by
  refine .of_quiet fun event hevent => ?_
  have hrun := s.run?_of_mem_notice a event hevent
  cases event with
  | stepCommitted | interceptorRaised => cases hrun
  | _ => rfl

theorem tells_act (s : Session) (a : Act) (clock : Bool) :
    Tells (s.act clock a).events (s.appends (.act a clock)) := by
  have hdispatch := (s.plan a).session.tells_dispatch (s.plan a).batch clock
  rw [isTimed_plan] at hdispatch
  rw [act_eq_carryOut]
  exact (s.tells_notice a).append hdispatch

theorem tells_stop (s : Session) (now : Timestamp) :
    Tells (s.stop now).events (s.appends (.stop now)) := by
  cases hd : s.state.isDelivering with
  | false =>
      simp only [stop, Conversation.stop?, appends, hd]
      exact .nil
  | true =>
      simp only [stop, Conversation.stop?, appends, hd]
      exact .quiet rfl (.committed _ (.feedback _) rfl (.quiet rfl .nil))

theorem tells_proceed (s : Session) (run : Run) :
    Tells (s.proceed run).2 (s.appends (.proceed run)) := by
  simp only [appends]
  rcases s.proceed_cases run with he | ⟨p, -, -, he⟩ | ⟨-, he⟩
  · rw [he, List.drop_length]
    exact .nil
  · obtain ⟨more, hmore, htells⟩ := (Conversation.beats_resumeFrom s.live s.state p).tells
    rw [he, hmore, List.drop_left]
    exact htells
  · rw [he, List.drop_length]
    exact .nil

/-- Each move reports what it appends. -/
theorem tells_perform (s : Session) (m : Move) : Tells (s.perform m).events (s.appends m) := by
  cases m with
  | act a clock => exact s.tells_act a clock
  | stop now => exact s.tells_stop now
  | proceed run => exact s.tells_proceed run
  | setGraph graph => exact .nil
  | _ => exact .quiet rfl .nil

theorem tells_published (s : Session) (moves : List Move) :
    Tells (s.published moves) (s.appended moves) := by
  induction moves generalizing s with
  | nil => exact .nil
  | cons m rest ih => exact (s.tells_perform m).append (ih _)

/-- What is published reports the entries that are appended to history, all of them in order and
each once, and after the report of a question what it asks; and what each move counts as appended is
what stands in history behind all that it leaves there. -/
theorem events_mirror_history (graph : FlowGraph) (config : Config) (mint : Mint)
    (moves : List Move) :
    let s := ofGraph graph config mint
    Tells (s.published moves) (s.appended moves) ∧
      (s.published moves).filterMap Event.committed? = (s.appended moves).map Entry.label ∧
      ∀ earlier m later, moves = earlier ++ m :: later → ∃ kept,
        (s.after earlier).Leaves m kept ∧
          ((s.after earlier).perform m).session.state.history =
            kept ++ (s.after earlier).appends m := by
  intro s
  have htells := s.tells_published moves
  exact ⟨htells, htells.filterMap_committed?, fun earlier m _ _ =>
    history_perform (asksOnce_after earlier Conversation.asksOnce_empty) m⟩

end Session

end Dialogue
