import Dialogue.Session.Basic

/-! How much is left to deliver. It shrinks whenever a run goes on, so every delivery ends. -/

namespace Dialogue

attribute [local instance(2000)] Zero.ofOfNat0

namespace Component

/-- How many pauses it takes to show a component. -/
def pauses (c : Component) : Nat := max 1 c.characters.length

/-- How many pauses it takes to show components, with one before each. -/
def pausesOf (cs : List Component) : Nat := (cs.map fun c => c.pauses + 1).sum

end Component

open Component (pausesOf)

/-- How many pauses it takes to deliver an entry. -/
def Entry.work : Entry → Nat
  | .step (.turn _ components) => pausesOf components + 1
  | _ => 0

def Entry.workOf (es : List Entry) : Nat := (es.map Entry.work).sum

open Entry (workOf)

/-- How many pauses a run has before it, this one included, for the turn in delivery. -/
def Pause.work : Pause → Nat
  | .unstarted => 1
  | .beforeTurn _ components => pausesOf components + 1
  | .beforeComponent c rest => c.pauses + pausesOf rest + 1
  | .beforeReveal _ rest => pausesOf rest + 1
  | .beforeCharacter _ _ chars rest => chars.length + pausesOf rest + 1

theorem Pause.work_pos (p : Pause) : 0 < p.work := by
  cases p <;> simp [Pause.work]

/-- What is left behind a segment. -/
def Segment.work (s : Segment) : Nat :=
  workOf s.state.queue + s.pause.elim 0 Pause.work

@[simp] theorem Segment.work_after (events : List Event) (s : Segment) :
    (s.after events).work = s.work := rfl

namespace Conversation

variable (run : Run) (c : Conversation)

theorem work_drain (queue : List Entry) : (drain run c queue).work ≤ workOf queue := by
  fun_induction drain run c queue with
  | case1 c => simp [settle, Segment.work, workOf]
  | case2 c id components rest c' events h =>
    have : c'.queue = rest := by
      simp only [enter, Prod.mk.injEq] at h
      rw [← h.1]
    simp only [Segment.work, this, Option.elim, Pause.work, workOf, List.map_cons,
      List.sum_cons, Entry.work]
    omega
  | case3 c e rest he ih =>
    rw [Segment.work_after]
    refine Nat.le_trans ih ?_
    simp only [workOf, List.map_cons, List.sum_cons]
    omega

theorem work_begin (d : Component) (rest : List Component) :
    (begin run c d rest).work = workOf c.queue + d.pauses + pausesOf rest := by
  cases h : d.characters with
  | nil =>
    simp only [begin, h, enter, Segment.work, Option.elim, Pause.work, Component.pauses,
      List.length_nil]
    omega
  | cons ch chars =>
    simp only [begin, h, beginStream, Segment.work, Option.elim, Pause.work, Component.pauses,
      List.length_cons]
    omega

theorem work_proceed (previous : Component) (rest : List Component) :
    (proceed run c previous rest).work ≤ workOf c.queue + pausesOf rest := by
  cases rest with
  | nil => exact Nat.le_trans (work_drain run c c.queue) (Nat.le_add_right ..)
  | cons d rest =>
    simp only [proceed]
    split
    · rw [work_begin]
      simp only [pausesOf, List.map_cons, List.sum_cons]
      omega
    · simp only [enter, Segment.work, Option.elim, Pause.work, pausesOf, List.map_cons,
        List.sum_cons]
      omega

theorem work_openTurn (id : StepId) (components : List Component) :
    (openTurn run c id components).work ≤ workOf c.queue + pausesOf components := by
  unfold openTurn
  rw [Segment.work_after]
  cases components with
  | nil => exact Nat.le_trans (work_drain run _ _) (Nat.le_add_right ..)
  | cons d rest =>
    simp only [work_begin, pausesOf, List.map_cons, List.sum_cons]
    show workOf c.queue + _ + _ ≤ _
    omega

/-- From one pause to the next something is done. -/
theorem work_resumeFrom (p : Pause) :
    (resumeFrom run c p).work < workOf c.queue + p.work := by
  cases p with
  | unstarted => exact Nat.lt_succ_of_le (work_drain run c c.queue)
  | beforeTurn id components => exact Nat.lt_succ_of_le (work_openTurn run c id components)
  | beforeComponent d rest =>
    simp only [resumeFrom, work_begin, Pause.work]
    omega
  | beforeReveal d rest => exact Nat.lt_succ_of_le (work_proceed run (c.reveal d.id) d rest)
  | beforeCharacter d ch chars rest =>
    cases chars with
    | nil =>
      have := work_proceed run (c.push ch).finishStream d rest
      simp only [resumeFrom, write, Segment.work_after, Pause.work, List.length_nil]
      exact Nat.lt_of_le_of_lt this (by
        show workOf c.queue + _ < _
        omega)
    | cons ch' chars =>
      simp only [resumeFrom, write, Segment.work, Option.elim, Pause.work, List.length_cons]
      show workOf c.queue + _ < _
      omega

end Conversation

namespace Session

def workOfRuns (runs : List DeliveryRun) : Nat := (runs.map fun d => d.pause.work).sum

/-- What is left to deliver in a session. -/
def work (s : Session) : Nat := workOf s.state.queue + workOfRuns s.runs

theorem workOfRuns_moveRun {runs : List DeliveryRun} {d : DeliveryRun} {run : Run}
    (h : runs.find? (fun d => d.run = run) = some d) (pause : Option Pause) :
    workOfRuns (moveRun run pause runs) + d.pause.work =
      workOfRuns runs + pause.elim 0 Pause.work := by
  induction runs with
  | nil => simp at h
  | cons head rest ih =>
    by_cases hh : head.run = run
    · simp only [List.find?_cons, hh, decide_true] at h
      cases h
      cases pause <;> simp [moveRun, hh, workOfRuns] <;> omega
    · simp only [List.find?_cons, hh, decide_false] at h
      have := ih h
      simp only [moveRun, hh, if_false, workOfRuns, List.map_cons, List.sum_cons] at this ⊢
      omega

theorem work_proceed_lt {s : Session} {run : Run} {pause : Pause}
    (h : s.pauseOf? run = some pause) : (s.proceed run).1.work < s.work := by
  have hfind := h
  simp only [pauseOf?, Option.map_eq_some_iff] at hfind
  obtain ⟨d, hd, rfl⟩ := hfind
  have hpos := d.pause.work_pos
  simp only [proceed, h]
  split
  · have hmove := workOfRuns_moveRun hd (s.state.resumeFrom run d.pause).pause
    have hless := Conversation.work_resumeFrom run s.state d.pause
    simp only [Segment.work] at hless
    simp only [work]
    omega
  · have hmove := workOfRuns_moveRun hd none
    simp only [Option.elim] at hmove
    simp only [work]
    omega

end Session

end Dialogue
