import Dialogue.Conversation.Answer
import Dialogue.Conversation.Resync
import Dialogue.Conversation.Snapshot
import Dialogue.Session.Config
import Dialogue.Session.Delivery

/-! A session: a conversation over a flow, what its user can do, and the runs that deliver what it
says. An operation answers at once; a run does its work from pause to pause. Each tells the events
that it brings about. An operation that goes on with the conversation is called with or without a
clock at hand, by which a run could wait. -/

namespace Dialogue

/-- A delivery run that has not ended, at the pause where it waits. -/
structure DeliveryRun where
  run : Run
  pause : Pause
  deriving DecidableEq, Repr

structure Session where
  config : Config
  graph : FlowGraph
  state : Conversation
  /-- The latest run. -/
  live : Run
  mint : Mint
  /-- The runs that have not ended, of which the latest alone can still do anything. -/
  runs : List DeliveryRun
  /-- The run started last, until someone has waited for it. -/
  awaited : Option Run

/-- What handling a turn of the user came to; nothing stops a turn that was ignored. -/
structure TurnOutcome where
  entries : Nat
  stop : Option StopReason
  deriving DecidableEq, Repr

namespace TurnOutcome

def ignored : TurnOutcome := ⟨0, none⟩

def isIgnored (o : TurnOutcome) : Bool := o.stop.isNone

end TurnOutcome

/-- What an operation answers: the session after it, the events it brings about, and its result. -/
structure Response (α : Type) where
  session : Session
  events : List Event
  result : α
  /-- The variable that an answer bound. -/
  bound : Option Variable := none

namespace Session

def ofGraph (graph : FlowGraph) (config : Config) (mint : Mint) : Session where
  config
  graph
  state := .empty
  live := .zero
  mint
  runs := []
  awaited := none

/-- An operation that does nothing. -/
def ignore (s : Session) : Response TurnOutcome := ⟨s, [], .ignored, none⟩

def snapshot (s : Session) : Snapshot := s.state.snapshot s.live.number

def inTraversal (message : String) : Event := .diagnostic "traversal" message

def inDelivery (message : String) : Event := .diagnostic "delivery" message

/-- Drops the pending question, for a new one to take its place. -/
def supersede (s : Session) : Session × List Event :=
  match s.state.takePending? with
  | some (i, state) =>
    let name := i.variableName
    let step := i.stepId
    ({ s with state },
      [inDelivery s!"interceptor for `{name}` at {step} superseded by a newer one"])
  | none => (s, [])

/-- Commits a batch at once, with all components shown. -/
def applyNow (s : Session) (batch : List Entry) : Session × List Event :=
  ({ s with state := s.state.apply batch }, batch.flatMap (Entry.announcedShown s.live))

/-- Puts a batch in the queue, and starts a run to deliver it unless one is at work. -/
def deliver (s : Session) (batch : List Entry) : Session :=
  let state := s.state.enqueue batch
  if state.isActive then { s with state }
  else
    let run := s.live.next
    { s with
      state := { state with isActive := true }
      live := run
      runs := s.runs ++ [⟨run, .unstarted⟩]
      awaited := some run }

/-- Hands on a batch, by a run where turns are delivered with pauses and the caller has a clock. -/
def hand (s : Session) (batch : List Entry) (clock : Bool) : Session × List Event :=
  if !s.config.simulates then s.applyNow batch
  else if clock then (s.deliver batch, [])
  else
    let (s, events) := s.applyNow batch
    (s, inDelivery "no tokio runtime; batch applied without simulated delivery" :: events)

/-- Hands on a batch. A question in it takes the place of the pending one. -/
def dispatch (s : Session) (batch : List Entry) (clock : Bool) : Session × List Event :=
  if batch.isEmpty then (s, [])
  else if batch.any fun e => e.interceptor?.isSome then
    let (s, first) := s.supersede
    let (s, rest) := s.hand batch clock
    (s, first ++ rest)
  else s.hand batch clock

/-- What is announced of how a walk ended. -/
def stopNotice (input : Option String) (t : Traversal) : List Event :=
  let hops := t.hops
  let cursor := t.cursor
  match t.stop with
  | .noIntentMatch => [.noIntentMatch (input.getD "")]
  | .hopLimit =>
    [inTraversal s!"hop limit of {hops} reached at {cursor}; the flow likely contains a cycle"]
  | .danglingConnection =>
    [inTraversal s!"connection from {cursor} points at a missing step"]
  | _ => []

/-- How walks go in the session. -/
def walker (s : Session) : Walker :=
  ⟨s.graph, s.state.store, s.config.intent, s.mint.interceptorId⟩

/-- Walks, moves the cursor, and hands on what the walk came to behind what was there before. -/
def follow (s : Session) (r : TraversalRequest) (before : List Entry) (clock : Bool) :
    Response TurnOutcome :=
  let t := s.walker.traverse s.config.limits r
  let batch := before ++ t.entries
  let s := { s with
    state := { s.state with cursor := some t.cursor }
    mint := s.mint.advance }
  let (s, events) := s.dispatch batch clock
  ⟨s, stopNotice r.input t ++ events, ⟨batch.length, some t.stop⟩, none⟩

/-- Opens the conversation, from the start of the flow. -/
def start (s : Session) (clock : Bool) : Response TurnOutcome :=
  match s.graph.start? with
  | some step => s.follow { origin := step.id } [] clock
  | none => ⟨s, [inTraversal "flow has no start step"], .ignored, none⟩

/-- What the user says, as an entry, and the session once it is made. -/
def bubble (s : Session) (text : String) : Entry × Session :=
  (.userMessage (s.mint.userMessage text), { s with mint := s.mint.advance })

/-- Typed text goes on from the cursor, to the user turn that it means. -/
def send (s : Session) (input : String) (clock : Bool) : Response TurnOutcome :=
  let text := Text.trim input
  if text = "" then s.ignore
  else
    match s.state.cursor.or (s.graph.start?.map Step.id) with
    | none => s.ignore
    | some origin =>
      let (message, s) := s.bubble text
      s.follow { origin, input := some text, bubbleShown := true } [message] clock

/-- A click on a suggestion of a step. -/
def click (s : Session) (origin : StepId) (handle : Option String) (label : String)
    (clock : Bool) : Response TurnOutcome :=
  let (message, s) := s.bubble label
  s.follow { origin, handle, bubbleShown := true } [message] clock

/-- Announces a variable that an answer bound. -/
def announceBound (written : Option Variable) : List Event :=
  written.toList.map fun v => .variableUpdated v.name v.value

/-- Goes on as an answer says. -/
def resume (s : Session) (clock : Bool) : Resumption → Response TurnOutcome
  | .resume origin handle _ => s.follow { origin, handle := some handle } [] clock
  | .stillMissing question _ =>
    let (s, events) := s.dispatch [.interceptor question] clock
    ⟨s, events, ⟨1, some .awaitingVariable⟩, none⟩
  | .noBranch _ => ⟨s, [], ⟨0, some .endOfChain⟩, none⟩
  | .stale => s.ignore

/-- Answers a question and goes on from its condition. Whoever listens for variables is told of the
one that the answer binds before anything is dispatched, and is taken to call nothing of the session
meanwhile. -/
def resolve (s : Session) (choice : Choice) (clock : Bool) : Response TurnOutcome :=
  let (resumption, state) := s.state.resolve choice s.mint.interceptorId
  let r := { s with state, mint := s.mint.advance }.resume clock resumption
  { r with
    events := announceBound resumption.written? ++ r.events
    bound := resumption.written? }

/-- Answers the pending question. -/
def answerPending (s : Session) (value : String) (clock : Bool) : Response TurnOutcome :=
  match s.state.pending? with
  | some i => s.resolve (.answer i value) clock
  | none => s.ignore

/-- Gives up what is on its way, and tells whether there was anything. No run survives. -/
def stop (s : Session) (now : Timestamp) : Response Bool :=
  let run := s.live.next
  match s.state.stop? (s.mint.feedback Conversation.stoppedText now) with
  | some (report, state) =>
    ⟨{ s with state, live := run, mint := s.mint.advance },
      [.stopped run (report.truncated.map (·.componentId)),
        .stepCommitted run report.feedbackId .feedback, .phaseChanged run .stopped], true, none⟩
  | none => ⟨{ s with live := run }, [], false, none⟩

/-- Forgets the conversation. No run survives. -/
def reset (s : Session) : Response Unit :=
  let run := s.live.next
  ⟨{ s with state := .empty, live := run }, [.phaseChanged run .idle], (), none⟩

/-- Changes the flow, which the conversation follows. -/
def setGraph (s : Session) (graph : FlowGraph) : Response ResyncReport :=
  ⟨{ s with graph, state := s.state.resync graph }, [], s.state.resyncReport graph, none⟩

def setVariable (s : Session) (name value : String) : Response Unit :=
  ⟨{ s with state := s.state.setVariable (.text name value) }, [.variableUpdated name value], (),
    none⟩

/-- The runs with one of them at its next pause, or without it once it has ended. -/
def moveRun (run : Run) (pause : Option Pause) : List DeliveryRun → List DeliveryRun
  | [] => []
  | d :: rest =>
    if d.run = run then pause.toList.map (DeliveryRun.mk run) ++ rest
    else d :: moveRun run pause rest

/-- Where a run waits, unless it has ended. -/
def pauseOf? (s : Session) (run : Run) : Option Pause :=
  (s.runs.find? fun d => d.run = run).map DeliveryRun.pause

/-- Lets a run go on to its next pause. One that is no longer the latest ends. -/
def proceed (s : Session) (run : Run) : Session × List Event :=
  match s.pauseOf? run with
  | none => (s, [])
  | some pause =>
    if run = s.live then
      let next := s.state.resumeFrom run pause
      ({ s with state := next.state, runs := moveRun run next.pause s.runs }, next.events)
    else ({ s with runs := moveRun run none s.runs }, [])

end Session

end Dialogue
