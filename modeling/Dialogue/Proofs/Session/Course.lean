import Dialogue.Session.Work

/-! What can happen to a session, move by move. A move is an operation, which answers at once, or a
run that goes on to its next pause, which may come between any two operations. Every act of the
user only prepares a batch of entries and then dispatches it. -/

namespace Dialogue

/-- What the user does to go on with the conversation. -/
inductive Act where
  | start
  | send (input : String)
  | click (origin : StepId) (handle : Option String) (label : String)
  | answer (value : String)
  | resolve (choice : Choice)

inductive Move where
  /-- The user acts, with a clock at hand or without. -/
  | act (a : Act) (clock : Bool)
  | stop (now : Timestamp)
  | reset
  | setGraph (graph : FlowGraph)
  | setVariable (name value : String)
  /-- A run goes on to its next pause. -/
  | proceed (run : Run)

/-- What a move answers; a run that goes on answers nothing. -/
inductive Reply where
  | turn (outcome : TurnOutcome)
  | stopped (any : Bool)
  | resynced (report : ResyncReport)
  | done
  deriving DecidableEq, Repr

namespace Move

def isOperation : Move → Bool
  | proceed _ => false
  | _ => true

end Move

/-- What an act comes to before anything is dispatched. -/
structure Plan where
  session : Session
  batch : List Entry
  notice : List Event
  outcome : TurnOutcome
  bound : Option Variable

namespace Plan

def carryOut (p : Plan) (clock : Bool) : Response TurnOutcome :=
  let (s, events) := p.session.dispatch p.batch clock
  ⟨s, p.notice ++ events, p.outcome, p.bound⟩

end Plan

namespace Response

def map {α β : Type} (f : α → β) (r : Response α) : Response β :=
  ⟨r.session, r.events, f r.result, r.bound⟩

@[simp] theorem session_map {α β : Type} (f : α → β) (r : Response α) :
    (r.map f).session = r.session := rfl

@[simp] theorem result_map {α β : Type} (f : α → β) (r : Response α) :
    (r.map f).result = f r.result := rfl

end Response

namespace Session

def act (s : Session) (clock : Bool) : Act → Response TurnOutcome
  | .start => s.start clock
  | .send input => s.send input clock
  | .click origin handle label => s.click origin handle label clock
  | .answer value => s.answerPending value clock
  | .resolve choice => s.resolve choice clock

def perform (s : Session) : Move → Response Reply
  | .act a clock => (s.act clock a).map .turn
  | .stop now => (s.stop now).map .stopped
  | .reset => s.reset.map fun _ => .done
  | .setGraph graph => (s.setGraph graph).map .resynced
  | .setVariable name value => (s.setVariable name value).map fun _ => .done
  | .proceed run => ⟨(s.proceed run).1, (s.proceed run).2, .done, none⟩

def after (s : Session) (moves : List Move) : Session :=
  moves.foldl (fun s m => (s.perform m).session) s

def replies (s : Session) : List Move → List Reply
  | [] => []
  | m :: rest =>
    let r := s.perform m
    if m.isOperation then r.result :: r.session.replies rest else r.session.replies rest

@[simp] theorem after_cons (s : Session) (m : Move) (moves : List Move) :
    s.after (m :: moves) = (s.perform m).session.after moves := rfl

theorem after_append (s : Session) (moves later : List Move) :
    s.after (moves ++ later) = (s.after moves).after later :=
  List.foldl_append

/-- What every move keeps holds throughout a course. -/
theorem after_induction {P : Session → Prop} {s : Session} (moves : List Move) (h : P s)
    (step : ∀ s m, m ∈ moves → P s → P (s.perform m).session) : P (s.after moves) := by
  induction moves generalizing s with
  | nil => exact h
  | cons m rest ih =>
      rw [after_cons]
      apply ih (step s m (by simp) h)
      intro s m hm
      exact step s m (by simp [hm])

/-- What is noted along a course, move by move. -/
def tracked {α : Type} (f : Session → α → Move → α) (s : Session) (a : α) : List Move → α
  | [] => a
  | m :: rest => (s.perform m).session.tracked f (f s a m) rest

/-- What every move keeps of a session and of the notes on it holds at the end of a course. -/
theorem tracked_induction {α : Type} {f : Session → α → Move → α} {P : Session → α → Prop}
    {s : Session} {a : α} (moves : List Move) (h : P s a)
    (step : ∀ earlier m later, moves = earlier ++ m :: later →
      P (s.after earlier) (s.tracked f a earlier) →
        P ((s.after earlier).perform m).session
          (f (s.after earlier) (s.tracked f a earlier) m)) :
    P (s.after moves) (s.tracked f a moves) := by
  induction moves generalizing s a with
  | nil => exact h
  | cons m rest ih =>
      apply ih (step [] m rest rfl h)
      intro earlier m' later hrest
      exact step (m :: earlier) m' later (congrArg (List.cons m) hrest)

/-- What every move keeps holds at the end of a course, with the moves before each in view. -/
theorem course_induction {P : Session → Prop} {s : Session} (moves : List Move) (h : P s)
    (step : ∀ earlier m later, moves = earlier ++ m :: later → P (s.after earlier) →
      P ((s.after earlier).perform m).session) : P (s.after moves) :=
  tracked_induction (f := fun _ u _ => u) (P := fun s (_ : Unit) => P s) (a := ()) moves h step

/-- Whether every move of a course is as `P` asks for, in the session that it finds. -/
def Throughout (P : Session → Move → Prop) (s : Session) : List Move → Prop
  | [] => True
  | m :: rest => P s m ∧ (s.perform m).session.Throughout P rest

instance decidableThroughout {P : Session → Move → Prop} [∀ s m, Decidable (P s m)] (s : Session) :
    ∀ moves, Decidable (s.Throughout P moves)
  | [] => .isTrue trivial
  | m :: rest =>
    have : Decidable ((s.perform m).session.Throughout P rest) :=
      decidableThroughout (s.perform m).session rest
    inferInstanceAs (Decidable (P s m ∧ (s.perform m).session.Throughout P rest))

theorem Throughout.at_move {P : Session → Move → Prop} {s : Session} {earlier : List Move}
    {m : Move} {later : List Move} (h : s.Throughout P (earlier ++ m :: later)) :
    P (s.after earlier) m := by
  induction earlier generalizing s with
  | nil => exact h.1
  | cons m' rest ih => exact ih h.2

theorem throughout_append {P : Session → Move → Prop} {s : Session} {moves later : List Move} :
    s.Throughout P (moves ++ later) ↔
      s.Throughout P moves ∧ (s.after moves).Throughout P later := by
  induction moves generalizing s with
  | nil => simp [Throughout, after]
  | cons m rest ih => simp only [List.cons_append, Throughout, ih, and_assoc, after_cons]

/-- Whether a move, if it is an act without a clock at hand, comes while nothing is delivered. Its
batch is committed at once then, and with nothing on its way there is nothing for it to get ahead
of. -/
def ComesInTurn (s : Session) : Move → Prop
  | .act _ clock => clock = true ∨ s.state.isActive = false
  | _ => True

instance (s : Session) : (m : Move) → Decidable (s.ComesInTurn m)
  | .act .. => inferInstanceAs (Decidable (_ ∨ _))
  | .stop _ | .reset | .setGraph _ | .setVariable .. | .proceed _ => .isTrue trivial

/-- Where there is a clock at hand for every act, all of them come in turn. -/
theorem throughout_comesInTurn_of_clock (s : Session) {moves : List Move}
    (h : ∀ a clock, .act a clock ∈ moves → clock = true) : s.Throughout ComesInTurn moves := by
  induction moves generalizing s with
  | nil => trivial
  | cons m rest ih =>
      refine ⟨?_, ih _ fun a clock hmem => h a clock (List.mem_cons_of_mem _ hmem)⟩
      cases m with
      | act a clock => exact .inl (h a clock List.mem_cons_self)
      | _ => trivial

/-! ### What an act prepares -/

def planNothing (s : Session) : Plan := ⟨s, [], [], .ignored, none⟩

def planWalk (s : Session) (r : TraversalRequest) (before : List Entry) : Plan :=
  let t := s.walker.traverse s.config.limits r
  let batch := before ++ t.entries
  let s := { s with
    state := { s.state with cursor := some t.cursor }
    mint := s.mint.advance }
  ⟨s, batch, stopNotice r.input t, ⟨batch.length, some t.stop⟩, none⟩

def planResumption (s : Session) : Resumption → Plan
  | .resume origin handle _ => s.planWalk { origin, handle := some handle } []
  | .stillMissing question _ => ⟨s, [.interceptor question], [], ⟨1, some .awaitingVariable⟩, none⟩
  | .noBranch _ => ⟨s, [], [], ⟨0, some .endOfChain⟩, none⟩
  | .stale => s.planNothing

def planAnswer (s : Session) (choice : Choice) : Plan :=
  let (resumption, state) := s.state.resolve choice s.mint.interceptorId
  let p := { s with state, mint := s.mint.advance }.planResumption resumption
  { p with
    notice := announceBound resumption.written? ++ p.notice
    bound := resumption.written? }

def plan (s : Session) : Act → Plan
  | .start =>
    match s.graph.start? with
    | some step => s.planWalk { origin := step.id } []
    | none => { s.planNothing with notice := [inTraversal "flow has no start step"] }
  | .send input =>
    let text := Text.trim input
    if text = "" then s.planNothing
    else
      match s.state.cursor.or (s.graph.start?.map Step.id) with
      | none => s.planNothing
      | some origin =>
        let (message, s) := s.bubble text
        s.planWalk { origin, input := some text, bubbleShown := true } [message]
  | .click origin handle label =>
    let (message, s) := s.bubble label
    s.planWalk { origin, handle, bubbleShown := true } [message]
  | .answer value =>
    match s.state.pending? with
    | some i => s.planAnswer (.answer i value)
    | none => s.planNothing
  | .resolve choice => s.planAnswer choice

theorem dispatch_nil (s : Session) (clock : Bool) : s.dispatch [] clock = (s, []) := rfl

theorem follow_eq (s : Session) (r : TraversalRequest) (before : List Entry) (clock : Bool) :
    s.follow r before clock = (s.planWalk r before).carryOut clock := rfl

theorem resolve_eq (s : Session) (choice : Choice) (clock : Bool) :
    s.resolve choice clock = (s.planAnswer choice).carryOut clock := by
  simp only [resolve, planAnswer]
  cases (s.state.resolve choice s.mint.interceptorId).1 <;>
    simp [resume, planResumption, planNothing, Plan.carryOut, follow_eq, ignore, dispatch_nil,
      List.append_assoc]

/-- Every act dispatches what it has prepared, and does nothing more. -/
theorem act_eq_carryOut (s : Session) (a : Act) (clock : Bool) :
    s.act clock a = (s.plan a).carryOut clock := by
  cases a with
  | start =>
      simp only [act, start, plan]
      cases s.graph.start? with
      | none => rfl
      | some step => exact follow_eq s _ _ clock
  | send input =>
      simp only [act, send, plan]
      split
      · rfl
      · cases s.state.cursor.or (s.graph.start?.map Step.id) with
        | none => rfl
        | some origin => exact follow_eq _ _ _ clock
  | click origin handle label => rfl
  | answer value =>
      simp only [act, answerPending, plan]
      cases s.state.pending? with
      | none => rfl
      | some i => exact resolve_eq s _ clock
  | resolve choice => exact resolve_eq s choice clock

def answered? (s : Session) : Act → Option String
  | .answer _ => s.state.pending?.map Interceptor.id
  | .resolve choice => some choice.interceptorId
  | _ => none

/-- An act does nothing, walks on, says something and walks on, or answers a question. -/
theorem plan_cases (s : Session) (a : Act) :
    (∃ notice, s.answered? a = none ∧ s.plan a = ⟨s, [], notice, .ignored, none⟩) ∨
      (∃ r, s.answered? a = none ∧ s.plan a = s.planWalk r []) ∨
      (∃ text r, s.answered? a = none ∧
        s.plan a = (s.bubble text).2.planWalk r [(s.bubble text).1]) ∨
      ∃ choice, s.answered? a = some choice.interceptorId ∧ s.plan a = s.planAnswer choice := by
  cases a with
  | start =>
      simp only [plan]
      cases s.graph.start? with
      | none => exact .inl ⟨_, rfl, rfl⟩
      | some step => exact .inr (.inl ⟨_, rfl, rfl⟩)
  | send input =>
      simp only [plan]
      split
      · exact .inl ⟨_, rfl, rfl⟩
      · cases s.state.cursor.or (s.graph.start?.map Step.id) with
        | none => exact .inl ⟨_, rfl, rfl⟩
        | some origin => exact .inr (.inr (.inl ⟨_, _, rfl, rfl⟩))
  | click origin handle label => exact .inr (.inr (.inl ⟨label, _, rfl, rfl⟩))
  | answer value =>
      simp only [plan, answered?]
      cases s.state.pending? with
      | none => exact .inl ⟨_, rfl, rfl⟩
      | some i => exact .inr (.inr (.inr ⟨_, rfl, rfl⟩))
  | resolve choice => exact .inr (.inr (.inr ⟨choice, rfl, rfl⟩))

/-- An act prepares by changing the conversation and making entries, and leaves runs alone. -/
theorem exists_session_plan (s : Session) (a : Act) :
    ∃ state made, (s.plan a).session = { s with state, mint := { s.mint with made } } := by
  rcases s.plan_cases a with ⟨_, -, hp⟩ | ⟨_, -, hp⟩ | ⟨_, _, -, hp⟩ | ⟨choice, -, hp⟩
  · exact ⟨_, _, congrArg Plan.session hp⟩
  · exact ⟨_, _, congrArg Plan.session hp⟩
  · exact ⟨_, _, congrArg Plan.session hp⟩
  · simp only [hp, planAnswer]
    cases (s.state.resolve choice s.mint.interceptorId).1 <;> exact ⟨_, _, rfl⟩

/-! ### What a dispatch does -/

theorem deliver_of_active {s : Session} (batch : List Entry) (ha : s.state.isActive = true) :
    s.deliver batch = { s with state := s.state.enqueue batch } := by
  simp [deliver, Conversation.enqueue, ha]

theorem deliver_of_not_active {s : Session} (batch : List Entry) (ha : s.state.isActive = false) :
    s.deliver batch = { s with
      state := { s.state.enqueue batch with isActive := true }
      live := s.live.next
      runs := s.runs ++ [⟨s.live.next, .unstarted⟩]
      awaited := some s.live.next } := by
  simp [deliver, Conversation.enqueue, ha]

theorem state_deliver (s : Session) (batch : List Entry) :
    (s.deliver batch).state = { s.state.enqueue batch with isActive := true } := by
  cases ha : s.state.isActive with
  | true =>
      rw [deliver_of_active batch ha, ← ha]
      rfl
  | false => rw [deliver_of_not_active batch ha]

/-- A batch is delivered with pauses if there are any and a clock to wait by, and else at once. -/
theorem hand_cases (s : Session) (batch : List Entry) (clock : Bool) :
    (¬ (s.config.simulates = true ∧ clock = true) ∧
        (s.hand batch clock).1 = (s.applyNow batch).1) ∨
      ((s.config.simulates = true ∧ clock = true) ∧
        (s.hand batch clock).1 = s.deliver batch) := by
  unfold hand
  cases hs : s.config.simulates with
  | false => exact .inl ⟨by simp, rfl⟩
  | true =>
      cases clock with
      | false => exact .inl ⟨by simp, rfl⟩
      | true => exact .inr ⟨⟨rfl, rfl⟩, rfl⟩

/-- A batch changes the conversation, and starts one run at most. -/
theorem session_dispatch_cases (s : Session) (batch : List Entry) (clock : Bool) :
    ∃ state, (s.dispatch batch clock).1 = { s with state } ∨
      (s.dispatch batch clock).1 = { s with
        state
        live := s.live.next
        runs := s.runs ++ [⟨s.live.next, .unstarted⟩]
        awaited := some s.live.next } := by
  have hsupersede : ∃ state, s.supersede.1 = { s with state } := by
    unfold supersede
    split <;> exact ⟨_, rfl⟩
  have hhand : ∀ state, ∃ state',
      (hand { s with state } batch clock).1 = { s with state := state' } ∨
        (hand { s with state } batch clock).1 = { s with
          state := state'
          live := s.live.next
          runs := s.runs ++ [⟨s.live.next, .unstarted⟩]
          awaited := some s.live.next } := by
    intro state
    rcases hand_cases { s with state } batch clock with ⟨-, h⟩ | ⟨-, h⟩
    · exact ⟨_, .inl h⟩
    · cases ha : state.isActive with
      | true => exact ⟨_, .inl (h.trans (deliver_of_active batch ha))⟩
      | false => exact ⟨_, .inr (h.trans (deliver_of_not_active batch ha))⟩
  unfold dispatch
  split
  · exact ⟨_, .inl rfl⟩
  · split
    · obtain ⟨state, hstate⟩ := hsupersede
      have h := hhand state
      rw [← hstate] at h
      exact h
    · exact hhand s.state

theorem exists_session_dispatch (s : Session) (batch : List Entry) (clock : Bool) :
    ∃ state live runs awaited,
      (s.dispatch batch clock).1 = { s with state, live, runs, awaited } := by
  obtain ⟨state, h | h⟩ := s.session_dispatch_cases batch clock <;> exact ⟨_, _, _, _, h⟩

/-- A stop gives up the latest run, and halts the conversation if anything is on its way. -/
theorem stop_cases (s : Session) (now : Timestamp) :
    (s.state.isDelivering = false ∧ (s.stop now).session = { s with live := s.live.next }) ∨
      (s.state.isDelivering = true ∧ (s.stop now).session = { s with
        state := s.state.halt (s.mint.feedback Conversation.stoppedText now)
        live := s.live.next
        mint := s.mint.advance }) := by
  cases hd : s.state.isDelivering with
  | true => exact .inr ⟨rfl, by simp [stop, Conversation.stop?, hd]⟩
  | false => exact .inl ⟨rfl, by simp [stop, Conversation.stop?, hd]⟩

theorem exists_session_proceed (s : Session) (run : Run) :
    ∃ state runs, (s.proceed run).1 = { s with state, runs } := by
  unfold proceed
  split
  · exact ⟨_, _, rfl⟩
  · split <;> exact ⟨_, _, rfl⟩

/-- A move changes the flow only if it edits it, and the settings never. -/
theorem exists_session_perform (s : Session) {m : Move} (hm : ∀ graph, m ≠ .setGraph graph) :
    ∃ state live mint runs awaited,
      (s.perform m).session = { s with state, live, mint, runs, awaited } := by
  cases m with
  | act a clock =>
      obtain ⟨_, _, hplan⟩ := s.exists_session_plan a
      obtain ⟨_, _, _, _, hdispatch⟩ :=
        (s.plan a).session.exists_session_dispatch (s.plan a).batch clock
      simp only [perform, Response.session_map, act_eq_carryOut, Plan.carryOut]
      rw [hdispatch, hplan]
      exact ⟨_, _, _, _, _, rfl⟩
  | stop now =>
      simp only [perform, Response.session_map]
      rcases s.stop_cases now with ⟨-, h⟩ | ⟨-, h⟩ <;> rw [h] <;> exact ⟨_, _, _, _, _, rfl⟩
  | proceed run =>
      obtain ⟨_, _, hproceed⟩ := s.exists_session_proceed run
      simp only [perform]
      rw [hproceed]
      exact ⟨_, _, _, _, _, rfl⟩
  | setGraph graph => exact absurd rfl (hm graph)
  | _ => exact ⟨_, _, _, _, _, rfl⟩

theorem graph_perform (s : Session) {m : Move} (hm : ∀ graph, m ≠ .setGraph graph) :
    (s.perform m).session.graph = s.graph := by
  obtain ⟨_, _, _, _, _, h⟩ := s.exists_session_perform hm
  rw [h]

theorem config_perform (s : Session) (m : Move) : (s.perform m).session.config = s.config := by
  by_cases hm : ∃ graph, m = .setGraph graph
  · obtain ⟨graph, rfl⟩ := hm
    rfl
  · obtain ⟨_, _, _, _, _, h⟩ := s.exists_session_perform (not_exists.mp hm)
    rw [h]

theorem config_after (s : Session) (moves : List Move) : (s.after moves).config = s.config :=
  after_induction (P := fun t => t.config = s.config) moves rfl
    fun t m _ h => (t.config_perform m).trans h

end Session

/-- A flow that says hello and asks how its user feels. -/
def welcomeFlow : Flow where
  steps := [.start "start", .turn "hello" [.message "h" "Hi"],
    .condition "mood" [(Branch.plain "good").guardedBy "mood" "good", .fallback "other"],
    .turn "glad" [.message "g" "Good"]]
  connections := [.between "start" "hello", .between "hello" "mood", ⟨"mood", "glad", some "good"⟩]

def welcome : FlowGraph := ⟨welcomeFlow, by decide +kernel, _, rfl, _, rfl⟩

def warmWelcomeFlow : Flow :=
  { welcomeFlow with steps := welcomeFlow.steps.set 1 (.turn "hello" [.message "h" "Hey"]) }

def warmWelcome : FlowGraph := ⟨warmWelcomeFlow, by decide +kernel, _, rfl, _, rfl⟩

end Dialogue
