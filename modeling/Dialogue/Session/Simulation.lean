import Dialogue.Hub
import Dialogue.Session.Work

/-! A session under a clock that moves only while someone waits. Runs go on when their pauses are
over, one subscriber follows the events, and one listener the variables that answers bind. -/

namespace Dialogue

structure Simulation where
  session : Session
  /-- Whether there is a clock at all. -/
  hasClock : Bool
  /-- Whether pauses take time. -/
  takesTime : Bool
  /-- Milliseconds since the start. -/
  now : Nat
  /-- When the pauses of runs are over; a run without an entry has not been started yet. -/
  wakes : List (Run × Nat)
  hub : Hub
  listener : Option String
  /-- What the listener was told, under its name at the time. -/
  told : List (String × Variable)

namespace Simulation

/-- How long one waits for an event. -/
def patience : Nat := 3600000

/-- The longest wait that the clock knows, which stands in for all longer ones: thirty years. -/
def longestWait : Nat := 30 * 365 * 24 * 3600000

def ofSession (session : Session) (hasClock takesTime : Bool) : Simulation where
  session
  hasClock
  takesTime
  now := 0
  wakes := []
  hub := (Hub.ofCapacity session.config.eventBuffer).subscribe
  listener := none
  told := []

/-- Takes over what an operation did. -/
def accept {α : Type} (sim : Simulation) (r : Response α) : Simulation :=
  { sim with
    session := r.session
    hub := sim.hub.publishAll r.events
    told := sim.told ++ (sim.listener.bind fun tag => r.bound.map (tag, ·)).toList }

/-- When a run goes on. -/
def wakeOf (sim : Simulation) (run : Run) : Nat :=
  ((sim.wakes.find? (·.1 = run)).map (·.2)).getD sim.now

/-- The earlier of two runs to go on, the first of equal ones. -/
def earlier (sim : Simulation) (best : Option DeliveryRun) (d : DeliveryRun) :
    Option DeliveryRun :=
  match best with
  | some b => if sim.wakeOf d.run < sim.wakeOf b.run then some d else some b
  | none => some d

/-- The run that goes on first, and when. -/
def first? (sim : Simulation) : Option (DeliveryRun × Nat) :=
  (sim.session.runs.foldl sim.earlier none).map fun d => (d, sim.wakeOf d.run)

/-- When a run that goes on at `time` does so again. -/
def wakesAfter (sim : Simulation) (run : Run) (time : Nat) (pause : Option Pause) :
    List (Run × Nat) :=
  let others := sim.wakes.filter fun w => w.1 ≠ run
  match pause with
  | some p =>
    let wait := if sim.takesTime then sim.session.config.timing.duration 0 p else 0
    (run, time + min longestWait wait) :: others
  | none => others

/-- Lets a run go on at some time. -/
def proceed (sim : Simulation) (run : Run) (time : Nat) : Simulation :=
  let (session, events) := sim.session.proceed run
  { sim with
    session
    now := max sim.now time
    wakes := sim.wakesAfter run time (session.pauseOf? run)
    hub := sim.hub.publishAll events }

theorem mem_of_foldl_earlier {sim : Simulation} {runs : List DeliveryRun}
    {best : Option DeliveryRun} {d : DeliveryRun} (h : runs.foldl sim.earlier best = some d) :
    d ∈ runs ∨ best = some d := by
  induction runs generalizing best with
  | nil => exact .inr h
  | cons head rest ih =>
    rcases ih h with h | h
    · exact .inl (List.mem_cons_of_mem _ h)
    · unfold earlier at h
      split at h
      · split at h
        · cases h; exact .inl (List.mem_cons_self ..)
        · exact .inr h
      · cases h; exact .inl (List.mem_cons_self ..)

theorem pauseOf?_of_first? {sim : Simulation} {d : DeliveryRun} {time : Nat}
    (h : sim.first? = some (d, time)) : ∃ pause, sim.session.pauseOf? d.run = some pause := by
  obtain ⟨_, hfold, heq⟩ := Option.map_eq_some_iff.1 h
  cases heq
  have hmem := (mem_of_foldl_earlier hfold).resolve_right (by simp)
  cases hfind : sim.session.runs.find? fun e => e.run = d.run with
  | none => exact absurd (List.find?_eq_none.1 hfind d hmem) (by simp)
  | some e => exact ⟨e.pause, by simp [Session.pauseOf?, hfind]⟩

theorem work_proceed_lt {sim : Simulation} {d : DeliveryRun} {time : Nat}
    (h : sim.first? = some (d, time)) (t : Nat) :
    (sim.proceed d.run t).session.work < sim.session.work :=
  (pauseOf?_of_first? h).elim fun _ hp => Session.work_proceed_lt hp

/-- Lets all happen that is due by some time. -/
def catchUp (sim : Simulation) (time : Nat) : Simulation :=
  match _h : sim.first? with
  | some (d, wake) =>
    if wake ≤ time then (sim.proceed d.run wake).catchUp time else sim
  | none => sim
termination_by sim.session.work
decreasing_by exact work_proceed_lt _h wake

theorem work_catchUp_le (sim : Simulation) (time : Nat) :
    (sim.catchUp time).session.work ≤ sim.session.work := by
  fun_induction catchUp sim time with
  | case1 sim d wake h hle ih => exact Nat.le_trans ih (Nat.le_of_lt (work_proceed_lt h wake))
  | case2 => exact Nat.le_refl _
  | case3 => exact Nat.le_refl _

theorem work_catchUp_lt {sim : Simulation} {d : DeliveryRun} {time : Nat}
    (h : sim.first? = some (d, time)) :
    (sim.catchUp time).session.work < sim.session.work := by
  rw [catchUp]
  split
  · next d' wake h' =>
    rw [h] at h'
    cases h'
    simp only [Nat.le_refl, if_true]
    exact Nat.lt_of_le_of_lt (work_catchUp_le ..) (work_proceed_lt h time)
  · next h' => rw [h] at h'; cases h'

/-- Moves the clock on to some time. Without a clock no time passes. -/
def turnTo (sim : Simulation) (time : Nat) : Simulation :=
  if sim.hasClock then { sim with now := max sim.now time } else sim

/-- Waits some milliseconds, and for all that is due by the end of them. -/
def advance (sim : Simulation) (ms : Nat) : Simulation :=
  if sim.hasClock then
    let time := sim.now + min longestWait ms
    (sim.catchUp time).turnTo time
  else sim

/-- Lets happen what comes before a waiting subscriber looks again: all of one instant or, where
pauses take no time, what the run that is first does up to its next pause. -/
def goOn (sim : Simulation) (d : DeliveryRun) (time : Nat) : Simulation :=
  if sim.takesTime then sim.catchUp time else sim.proceed d.run time

theorem work_goOn_lt {sim : Simulation} {d : DeliveryRun} {time : Nat}
    (h : sim.first? = some (d, time)) :
    (sim.goOn d time).session.work < sim.session.work := by
  unfold goOn
  split
  · exact work_catchUp_lt h
  · exact work_proceed_lt h time

/-- Waits until a run has ended. -/
def waitForEnd (sim : Simulation) (run : Run) : Simulation :=
  if (sim.session.pauseOf? run).isNone then sim
  else
    match _h : sim.first? with
    | some (d, wake) => (sim.proceed d.run wake).waitForEnd run
    | none => sim
termination_by sim.session.work
decreasing_by exact work_proceed_lt _h wake

/-- Waits until the run started last has ended. This can be done once for each run. -/
def waitForIdle (sim : Simulation) : Simulation :=
  match sim.session.awaited with
  | some run => { sim with session.awaited := none }.waitForEnd run
  | none => sim

/-- What the subscriber finds in the hub. -/
def takeEvents (sim : Simulation) : List Event × Simulation :=
  let (events, hub) := sim.hub.drain 0
  (events, { sim with hub })

/-- Receives events up to one that is wanted. Tells them with their times, and whether the wanted
one came before `deadline` and soon enough after the one before it. At the deadline itself the
waiting ends before anything else happens. -/
def receiveUntil (sim : Simulation) (wanted : Event → Bool) (deadline : Nat) :
    List (Nat × Event) × Bool × Simulation :=
  match _h : sim.hub.next? 0 with
  | (some e, hub) =>
    let sim := { sim with hub }
    if wanted e then ([(sim.now, e)], true, sim)
    else
      let (seen, found, last) := sim.receiveUntil wanted (sim.now + patience)
      ((sim.now, e) :: seen, found, last)
  | (none, hub) =>
    let sim := { sim with hub }
    match _hfirst : sim.first? with
    | some (d, wake) =>
      if wake < deadline then (sim.goOn d wake).receiveUntil wanted deadline
      else ([], false, sim.turnTo deadline)
    | none => ([], false, sim.turnTo deadline)
termination_by (sim.session.work, sim.hub.unread 0)
decreasing_by
  · exact Prod.Lex.right _ (Hub.unread_next?_lt _h)
  · exact Prod.Lex.left _ _ (work_goOn_lt _hfirst)

/-- Receives events up to one that is wanted, each within an hour of the one before it. -/
def seek (sim : Simulation) (wanted : Event → Bool) : List (Nat × Event) × Bool × Simulation :=
  sim.receiveUntil wanted (sim.now + patience)

/-- What the listener was told since it was last asked. -/
def takeTold (sim : Simulation) : List (String × Variable) × Simulation :=
  (sim.told, { sim with told := [] })

end Simulation

end Dialogue
