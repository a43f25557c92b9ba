import Dialogue.Session.Work

/-! A delivery with all its checks. A run asks whether it is still the latest before each change and
on both sides of each pause; what it announces is not checked. For the latest run all checks pass,
and any other is refused before it has changed or announced anything. -/

namespace Dialogue

/-- What a run does from one pause to the next: what it comes to unless it is refused, and the
conversation and the events that it leaves. A refusal undoes nothing. -/
structure Task (α : Type) where
  on : Conversation → Except Superseded α × Conversation × List Event

namespace Task

def behind {α : Type} (events : List Event) (r : Except Superseded α × Conversation × List Event) :
    Except Superseded α × Conversation × List Event :=
  (r.1, r.2.1, events ++ r.2.2)

instance : Monad Task where
  pure a := ⟨fun c => (.ok a, c, [])⟩
  bind t f := ⟨fun c =>
    match t.on c with
    | (.ok a, c, events) => behind events ((f a).on c)
    | (.error e, c, events) => (.error e, c, events)⟩

def announce (events : List Event) : Task Unit := ⟨fun c => (.ok (), c, events)⟩

def queued : Task (List Entry) := ⟨fun c => (.ok c.queue, c, [])⟩

variable (run live : Run)

/-- Asks whether the run is still the latest. -/
def check : Task Unit := ⟨fun c => (run.check live, c, [])⟩

def change {α : Type} (f : Conversation → α × Conversation) : Task α := do
  check run live
  ⟨fun c => (.ok (f c).1, (f c).2, [])⟩

def wait (p : Pause) : Task (Option Pause) := do
  check run live
  pure (some p)

def enter (phase : Phase) : Task Unit := do
  let changed ← change run live fun c =>
    (c.phase != phase, { c with phase, isThinking := phase.isPause })
  if changed then announce [.phaseChanged run phase]

def settle : Task (Option Pause) := do
  let phase ← change run live fun c =>
    let phase := if c.phase = .awaitingInterceptor then Phase.awaitingInterceptor else .idle
    (phase, { c with queue := [], isActive := false, isThinking := false, phase })
  announce [.phaseChanged run phase]
  pure none

def drain : List Entry → Task (Option Pause)
  | [] => settle run live
  | .step (.turn id components) :: rest => do
    change run live fun c => ((), { c with queue := rest })
    enter run live .thinking
    wait run live (.beforeTurn id components)
  | e :: rest => do
    change run live fun c => ((), { c with queue := rest })
    change run live fun c => ((), c.commit e)
    announce (e.announced run)
    drain rest

def begin (d : Component) (rest : List Component) : Task (Option Pause) :=
  match d.characters with
  | ch :: chars => do
    change run live fun c => ((), c.beginStream d.id)
    announce [.phaseChanged run .streaming]
    wait run live (.beforeCharacter d ch chars rest)
  | [] => do
    enter run live .instantReveal
    wait run live (.beforeReveal d rest)

def proceed (previous : Component) : List Component → Task (Option Pause)
  | [] => do drain run live (← queued)
  | d :: rest =>
    if previous.isPrompt && d.isPrompt then begin run live d rest
    else do
      enter run live .pausedBetween
      wait run live (.beforeComponent d rest)

def openTurn (id : StepId) (components : List Component) : Task (Option Pause) := do
  let e := Entry.step (.turn id components)
  change run live fun c => ((), { c with isThinking := false }.commit e)
  announce (e.announced run)
  match components with
  | [] => drain run live (← queued)
  | d :: rest => begin run live d rest

def showWhole (d : Component) (rest : List Component) : Task (Option Pause) := do
  change run live fun c => ((), c.reveal d.id)
  announce [.componentRevealed run d.id]
  proceed run live d rest

def write (d : Component) (ch : Char) (chars : List Char) (rest : List Component) :
    Task (Option Pause) := do
  let shown ← change run live fun c => ((c.push ch).streaming, c.push ch)
  announce (shown.toList.map fun s => .streamProgress run d.id s.text)
  match chars with
  | [] =>
    change run live fun c => ((), c.finishStream)
    announce [.componentRevealed run d.id]
    proceed run live d rest
  | ch :: chars => wait run live (.beforeCharacter d ch chars rest)

/-- What a run does when a pause is over, first of all the check behind the pause. A run that has
not started has none before its first look at the queue. -/
def resumeFrom : Pause → Task (Option Pause)
  | .unstarted => do drain run live (← queued)
  | .beforeTurn id components => do
    check run live
    openTurn run live id components
  | .beforeComponent d rest => do
    check run live
    begin run live d rest
  | .beforeReveal d rest => do
    check run live
    showWhole run live d rest
  | .beforeCharacter d ch chars rest => do
    check run live
    write run live d ch chars rest

theorem bind_of_ok {α β : Type} {t : Task α} {c c' : Conversation} {a : α} {events : List Event}
    (h : t.on c = (.ok a, c', events)) (f : α → Task β) :
    (t >>= f).on c = behind events ((f a).on c') := by
  simp only [bind, h]

theorem bind_of_error {α β : Type} {t : Task α} {c c' : Conversation} {e : Superseded}
    {events : List Event} (h : t.on c = (.error e, c', events)) (f : α → Task β) :
    (t >>= f).on c = (.error e, c', events) := by
  simp only [bind, h]

theorem queued_bind {α : Type} (f : List Entry → Task α) (c : Conversation) :
    (queued >>= f).on c = (f c.queue).on c := rfl

theorem announce_bind {α : Type} (events : List Event) (f : Unit → Task α) (c : Conversation) :
    (announce events >>= f).on c = behind events ((f ()).on c) := rfl

end Task

def Segment.result (g : Segment) : Except Superseded (Option Pause) × Conversation × List Event :=
  (.ok g.pause, g.state, g.events)

theorem Segment.result_after (events : List Event) (g : Segment) :
    (g.after events).result = Task.behind events g.result := rfl

namespace Task

/-! ### The latest run -/

section Latest

variable (run : Run)

theorem check_self (c : Conversation) : (check run run).on c = (.ok (), c, []) := by
  simp [check, Run.check]

theorem check_bind {α : Type} (f : Unit → Task α) (c : Conversation) :
    (check run run >>= f).on c = (f ()).on c :=
  bind_of_ok (check_self run c) f

theorem change_bind {α β : Type} (f : Conversation → α × Conversation) (g : α → Task β)
    (c : Conversation) : (change run run f >>= g).on c = (g (f c).1).on (f c).2 := by
  have h : (change run run f).on c = (.ok (f c).1, (f c).2, []) := check_bind run _ c
  exact bind_of_ok h g

theorem wait_self (p : Pause) (c : Conversation) :
    (wait run run p).on c = (.ok (some p), c, []) :=
  check_bind run _ c

theorem enter_bind {α : Type} (phase : Phase) (f : Unit → Task α) (c : Conversation) :
    (enter run run phase >>= f).on c =
      behind (c.enter run phase).2 ((f ()).on (c.enter run phase).1) := by
  apply bind_of_ok
  rw [enter, change_bind]
  by_cases h : c.phase = phase <;> simp [h, Conversation.enter, announce, pure]

theorem settle_self (c : Conversation) :
    (settle run run).on c = (Conversation.settle run { c with queue := [] }).result := by
  rw [settle, change_bind, announce_bind]
  rfl

/-- What a run leaves of the queue is only set at the end of a segment. -/
theorem drain_self (queue old : List Entry) (c : Conversation) :
    (drain run run queue).on { c with queue := old } =
      (Conversation.drain run c queue).result := by
  fun_induction Conversation.drain run c queue generalizing old with
  | case1 c => exact settle_self run _
  | case2 c id components rest c' events h =>
      rw [drain, change_bind, enter_bind, wait_self]
      simp [h, Segment.result, behind]
  | case3 c e rest he ih =>
      rw [drain.eq_3 _ _ _ _ he, change_bind, change_bind, announce_bind, Segment.result_after]
      exact congrArg (behind _) (ih rest)

theorem drain_queued (c : Conversation) :
    (queued >>= drain run run).on c = (Conversation.drain run c c.queue).result :=
  drain_self run c.queue c.queue c

theorem begin_self (d : Component) (rest : List Component) (c : Conversation) :
    (begin run run d rest).on c = (Conversation.begin run c d rest).result := by
  unfold begin Conversation.begin
  cases d.characters with
  | nil =>
      simp only [enter_bind, wait_self]
      simp [Segment.result, behind]
  | cons ch chars =>
      simp only [change_bind, announce_bind, wait_self]
      rfl

theorem proceed_self (d : Component) (rest : List Component) (c : Conversation) :
    (proceed run run d rest).on c = (Conversation.proceed run c d rest).result := by
  cases rest with
  | nil => exact drain_queued run c
  | cons d' rest =>
      simp only [proceed, Conversation.proceed]
      split
      · exact begin_self run d' rest c
      · rw [enter_bind, wait_self]
        simp [Segment.result, behind]

theorem openTurn_self (id : StepId) (components : List Component) (c : Conversation) :
    (openTurn run run id components).on c = (Conversation.openTurn run c id components).result := by
  simp only [openTurn, change_bind, announce_bind, Conversation.openTurn, Segment.result_after]
  cases components with
  | nil => exact congrArg (behind _) (drain_queued run _)
  | cons d rest => exact congrArg (behind _) (begin_self run d rest _)

theorem showWhole_self (d : Component) (rest : List Component) (c : Conversation) :
    (showWhole run run d rest).on c = (Conversation.showWhole run c d rest).result := by
  rw [showWhole, change_bind, announce_bind, proceed_self]
  rfl

theorem write_self (d : Component) (ch : Char) (chars : List Char) (rest : List Component)
    (c : Conversation) :
    (write run run d ch chars rest).on c = (Conversation.write run c d ch chars rest).result := by
  cases chars with
  | nil =>
      simp only [write, change_bind, announce_bind, proceed_self]
      simp [Segment.result, Conversation.write, Segment.after, behind]
  | cons ch' chars =>
      simp only [write, change_bind, announce_bind, wait_self]
      simp [Segment.result, Conversation.write, behind]

/-- The latest run passes all its checks. -/
theorem resumeFrom_self (p : Pause) (c : Conversation) :
    (resumeFrom run run p).on c = (c.resumeFrom run p).result := by
  cases p with
  | unstarted => exact drain_queued run c
  | beforeTurn id components => exact (check_bind run _ c).trans (openTurn_self run id components c)
  | beforeComponent d rest => exact (check_bind run _ c).trans (begin_self run d rest c)
  | beforeReveal d rest => exact (check_bind run _ c).trans (showWhole_self run d rest c)
  | beforeCharacter d ch chars rest =>
      exact (check_bind run _ c).trans (write_self run d ch chars rest c)

end Latest

/-! ### All other runs -/

section Superseded

variable {run live : Run}

theorem check_of_ne (h : run ≠ live) (c : Conversation) :
    (check run live).on c = (.error ⟨run, live⟩, c, []) := by
  simp [check, Run.check, h]

theorem change_of_ne (h : run ≠ live) {α : Type} (f : Conversation → α × Conversation)
    (c : Conversation) : (change run live f).on c = (.error ⟨run, live⟩, c, []) :=
  bind_of_error (check_of_ne h c) _

theorem drain_of_ne (h : run ≠ live) (queue : List Entry) (c : Conversation) :
    (drain run live queue).on c = (.error ⟨run, live⟩, c, []) := by
  cases queue with
  | nil => exact bind_of_error (change_of_ne h _ c) _
  | cons e rest =>
      unfold drain
      split
      · next heq => cases heq
      · exact bind_of_error (change_of_ne h _ c) _
      · exact bind_of_error (change_of_ne h _ c) _

/-- A run that is not the latest is refused wherever it waits, with nothing changed and nothing
announced. -/
theorem resumeFrom_of_ne (h : run ≠ live) (p : Pause) (c : Conversation) :
    (resumeFrom run live p).on c = (.error ⟨run, live⟩, c, []) := by
  cases p with
  | unstarted => exact (queued_bind _ c).trans (drain_of_ne h c.queue c)
  | _ => exact bind_of_error (check_of_ne h c) _

end Superseded

end Task

namespace Session

/-- Lets a run go on to its next pause, with all its checks. One that is refused ends. -/
def proceedChecked (s : Session) (run : Run) : Session × List Event :=
  match s.pauseOf? run with
  | none => (s, [])
  | some p =>
    let (result, state, events) := (Task.resumeFrom run s.live p).on s.state
    ({ s with state, runs := moveRun run result.toOption.join s.runs }, events)

theorem proceedChecked_eq (s : Session) (run : Run) : s.proceedChecked run = s.proceed run := by
  unfold proceedChecked proceed
  cases s.pauseOf? run with
  | none => rfl
  | some p =>
      by_cases h : run = s.live
      · subst h
        simp [Task.resumeFrom_self, Segment.result, Except.toOption]
      · simp [Task.resumeFrom_of_ne h, h, Except.toOption]

end Session

end Dialogue
