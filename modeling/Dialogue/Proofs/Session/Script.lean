import Dialogue.Session.Delivery

/-! The script of a turn. From the flow and the timing it is known when a turn is committed, when
each of its components is begun and shown, and when each character of a text appears, if the pause
before every character is the same. A run announces just this, however the conversation is changed
meanwhile, or a beginning of it if another run takes its place. -/

namespace Dialogue

attribute [local instance(2000)] Zero.ofOfNat0

def Event.isPhase : Event → Bool
  | phaseChanged .. => true
  | _ => false

namespace Component

theorem characters_of_isPrompt {d : Component} (h : d.isPrompt = true) : d.characters = [] := by
  cases d with
  | prompt id label handle => rfl
  | _ => cases h

def phase (d : Component) : Phase := if d.characters = [] then .instantReveal else .streaming

end Component

section Script

variable (t : Timing) (delay : Nat) (run : Run)

namespace Component

def wholeCost (d : Component) : Nat := if d.isPrompt then t.prompt else t.card

/-- How long a component takes to be shown once it is begun. -/
def cost (d : Component) : Nat :=
  if d.characters = [] then d.wholeCost t else delay * d.characters.length

/-- How a component that is begun at some time is shown: after each pause one character more, and
then the component is there. -/
def showing (time : Nat) (d : Component) : List (Nat × Event) :=
  (List.range d.characters.length).map (fun i => (time + delay * (i + 1),
      .streamProgress run d.id (String.ofList (d.characters.take (i + 1))))) ++
    [(time + d.cost t delay, .componentRevealed run d.id)]

def writing (d : Component) (text : String) (time : Nat) : List Char → List (Nat × Event)
  | [] => [(time, .componentRevealed run d.id)]
  | ch :: chars =>
    (time + delay, .streamProgress run d.id (text.push ch)) ::
      d.writing (text.push ch) (time + delay) chars

end Component

namespace Script

/-- How often there is a pause between two components of a row. -/
def pausesIn : List Component → Nat
  | previous :: d :: rest =>
    (if previous.isPrompt && d.isPrompt then 0 else 1) + pausesIn (d :: rest)
  | _ => 0

/-- When a component of a turn is begun: after the pause before the turn, the components in front,
and the pauses between them. -/
def beginsAt (components : List Component) (k : Nat) : Nat :=
  t.preTurn + ((components.take k).map (Component.cost t delay)).sum +
    t.between * pausesIn (components.take (k + 1))

def behind (previous : Component) (time : Nat) : List Component → List (Nat × Event)
  | [] => []
  | d :: rest =>
    if previous.isPrompt && d.isPrompt then
      d.showing t delay run time ++ behind d (time + d.cost t delay) rest
    else
      let start := time + t.between
      (time, .phaseChanged run .pausedBetween) :: (start, .phaseChanged run d.phase) ::
        (d.showing t delay run start ++ behind d (start + d.cost t delay) rest)

def beginning (time : Nat) (d : Component) (rest : List Component) : List (Nat × Event) :=
  (time, .phaseChanged run d.phase) ::
    (d.showing t delay run time ++ behind t delay run d (time + d.cost t delay) rest)

def committed (time : Nat) (id : StepId) (components : List Component) : List (Nat × Event) :=
  (time, .stepCommitted run id .turn) ::
    match components with
    | [] => []
    | d :: rest => beginning t delay run time d rest

/-- All that a run announces of a turn that it has taken from the queue. -/
def turn (id : StepId) (components : List Component) : List (Nat × Event) :=
  committed t delay run t.preTurn id components

/-- What is left of the script while the run waits at a pause that began at some time. -/
def ofPause (text : String) (time : Nat) : Pause → List (Nat × Event)
  | .unstarted => []
  | .beforeTurn id components => committed t delay run (time + t.preTurn) id components
  | .beforeComponent d rest => beginning t delay run (time + t.between) d rest
  | .beforeReveal d rest =>
    let shown := time + d.wholeCost t
    (shown, .componentRevealed run d.id) :: behind t delay run d shown rest
  | .beforeCharacter d ch chars rest =>
    d.writing delay run text time (ch :: chars) ++
      behind t delay run d (time + delay * (chars.length + 1)) rest

end Script

/-! ### The script in closed form -/

namespace Component

theorem push_append_ofList (text : String) (ch : Char) (chars : List Char) :
    text.push ch ++ String.ofList chars = text ++ String.ofList (ch :: chars) :=
  String.toList_inj.mp (by simp)

theorem writing_eq (d : Component) (text : String) (time : Nat) (chars : List Char) :
    d.writing delay run text time chars =
      (List.range chars.length).map (fun i => (time + delay * (i + 1),
        Event.streamProgress run d.id (text ++ String.ofList (chars.take (i + 1))))) ++
      [(time + delay * chars.length, .componentRevealed run d.id)] := by
  induction chars generalizing text time with
  | nil => simp [writing]
  | cons ch chars ih =>
      have htime : ∀ n, time + delay + delay * n = time + delay * (n + 1) := fun n => by
        rw [Nat.mul_succ]
        omega
      have hfirst : text.push ch = text ++ String.ofList [ch] :=
        String.toList_inj.mp (by simp)
      rw [writing, ih, List.length_cons, List.range_succ_eq_map, List.map_cons, List.map_map,
        List.cons_append, htime]
      congr 1
      · rw [List.take_succ_cons, List.take_zero, ← hfirst, Nat.zero_add, Nat.mul_one]
      · congr 1
        refine List.map_congr_left fun i _ => ?_
        rw [push_append_ofList, htime]
        rfl

theorem showing_eq_writing {d : Component} (h : d.characters ≠ []) (time : Nat) :
    d.showing t delay run time = d.writing delay run "" time d.characters := by
  simp [writing_eq, showing, cost, h]

theorem showing_of_characters {d : Component} (h : d.characters = []) (time : Nat) :
    d.showing t delay run time = [(time + d.wholeCost t, .componentRevealed run d.id)] := by
  simp [showing, cost, h]

theorem not_isPhase_of_mem_showing (d : Component) (time : Nat) :
    ∀ e ∈ d.showing t delay run time, e.2.isPhase = false := by
  intro e he
  rcases List.mem_append.mp he with he | he
  · obtain ⟨i, -, rfl⟩ := List.mem_map.mp he
    rfl
  · rw [List.mem_singleton.mp he]
    rfl

end Component

namespace Script

def withoutPhases (script : List (Nat × Event)) : List (Nat × Event) :=
  script.filter fun e => !e.2.isPhase

@[simp] theorem withoutPhases_append (script later : List (Nat × Event)) :
    withoutPhases (script ++ later) = withoutPhases script ++ withoutPhases later :=
  List.filter_append ..

@[simp] theorem withoutPhases_phaseChanged (time : Nat) (phase : Phase)
    (script : List (Nat × Event)) :
    withoutPhases ((time, .phaseChanged run phase) :: script) = withoutPhases script := rfl

@[simp] theorem withoutPhases_showing (d : Component) (time : Nat) :
    withoutPhases (d.showing t delay run time) = d.showing t delay run time :=
  List.filter_eq_self.mpr fun e he => by
    rw [d.not_isPhase_of_mem_showing t delay run time e he]
    rfl

/-- What is told of a script, with its phases or without. -/
def told (phases : Bool) (script : List (Nat × Event)) : List (Nat × Event) :=
  script.filter fun e => phases || !e.2.isPhase

@[simp] theorem told_append (phases : Bool) (script later : List (Nat × Event)) :
    told phases (script ++ later) = told phases script ++ told phases later :=
  List.filter_append ..

@[simp] theorem told_true (script : List (Nat × Event)) : told true script = script :=
  List.filter_eq_self.mpr fun _ _ => rfl

@[simp] theorem told_false (script : List (Nat × Event)) :
    told false script = withoutPhases script := rfl

def next (previous d : Component) (time : Nat) : Nat :=
  time + t.between * if previous.isPrompt && d.isPrompt then 0 else 1

theorem withoutPhases_behind_cons (previous d : Component) (time : Nat) (rest : List Component) :
    withoutPhases (behind t delay run previous time (d :: rest)) =
      d.showing t delay run (next t previous d time) ++
        withoutPhases (behind t delay run d (next t previous d time + d.cost t delay) rest) := by
  rw [behind, next]
  split <;> simp

/-- Behind a component each one is begun after the components and the pauses in front of it. -/
theorem withoutPhases_behind (previous : Component) (time : Nat) (rest : List Component) :
    withoutPhases (behind t delay run previous time rest) =
      (rest.mapIdx fun k d => d.showing t delay run
        (time + ((rest.take k).map (Component.cost t delay)).sum +
          t.between * pausesIn (previous :: rest.take (k + 1)))).flatten := by
  induction rest generalizing previous time with
  | nil => rfl
  | cons d rest ih =>
      have htime : ∀ k, next t previous d time + d.cost t delay +
          ((rest.take k).map (Component.cost t delay)).sum +
            t.between * pausesIn (d :: rest.take (k + 1)) =
          time + (((d :: rest).take (k + 1)).map (Component.cost t delay)).sum +
            t.between * pausesIn (previous :: (d :: rest).take (k + 1 + 1)) := by
        intro k
        simp only [next, List.take_succ_cons, List.map_cons, List.sum_cons, pausesIn, Nat.mul_add]
        omega
      rw [withoutPhases_behind_cons, ih, List.mapIdx_cons, List.flatten_cons]
      simp only [htime]
      rfl

/-- Each component of a turn is shown once, in their order, and begun when its turn comes. -/
theorem withoutPhases_turn (id : StepId) (components : List Component) :
    withoutPhases (turn t delay run id components) =
      (t.preTurn, .stepCommitted run id .turn) ::
        (components.mapIdx fun k d =>
          d.showing t delay run (beginsAt t delay components k)).flatten := by
  refine congrArg (List.cons _) ?_
  cases components with
  | nil => rfl
  | cons d rest =>
      have hbegun : withoutPhases (beginning t delay run t.preTurn d rest) =
          d.showing t delay run t.preTurn ++
            withoutPhases (behind t delay run d (t.preTurn + d.cost t delay) rest) := by
        simp [beginning]
      have htime : ∀ k, t.preTurn + d.cost t delay +
          ((rest.take k).map (Component.cost t delay)).sum +
            t.between * pausesIn (d :: rest.take (k + 1)) =
          beginsAt t delay (d :: rest) (k + 1) := by
        intro k
        simp only [beginsAt, List.take_succ_cons, List.map_cons, List.sum_cons]
        omega
      refine hbegun.trans ?_
      rw [withoutPhases_behind, List.mapIdx_cons, List.flatten_cons]
      simp only [htime]
      rfl

end Script

end Script

end Dialogue
