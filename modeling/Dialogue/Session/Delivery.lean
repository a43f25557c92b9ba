import Dialogue.Conversation.State
import Dialogue.Event.Basic
import Dialogue.Session.Timing

/-! The delivery of a queue. A run takes entries out one by one. It commits them at once, except
turns, which it shows component by component and texts character by character, with pauses. From
one pause to the next nothing else happens. -/

namespace Dialogue

namespace Entry

/-- What is announced of a question. -/
def raised (run : Run) (e : Entry) : List Event :=
  match e.interceptor? with
  | some i =>
    [.interceptorRaised run i.id i.variableName i.stepId, .phaseChanged run .awaitingInterceptor]
  | none => []

/-- What is announced when an entry is committed. -/
def announced (run : Run) (e : Entry) : List Event :=
  .stepCommitted run e.id e.kind :: e.raised run

/-- What is announced when an entry is committed with all its components shown. -/
def announcedShown (run : Run) (e : Entry) : List Event :=
  .stepCommitted run e.id e.kind ::
    (e.components.map fun c => .componentRevealed run c.id) ++ e.raised run

end Entry

namespace Pause

/-- The turn that a run has taken out of the queue and not committed yet. -/
def held : Pause → List Entry
  | beforeTurn id components => [.step (.turn id components)]
  | _ => []

end Pause

/-- What a run does up to its next pause, if it does not end before. -/
structure Segment where
  state : Conversation
  events : List Event
  pause : Option Pause
  deriving DecidableEq, Repr

namespace Segment

/-- The segment with events announced before its own. -/
def after (events : List Event) (s : Segment) : Segment :=
  { s with events := events ++ s.events }

end Segment

namespace Conversation

variable (run : Run)

/-- Goes into a phase, and announces it unless nothing changes. -/
def enter (c : Conversation) (phase : Phase) : Conversation × List Event :=
  ({ c with phase, isThinking := phase.isPause },
    if c.phase = phase then [] else [.phaseChanged run phase])

/-- Ends the delivery. A question that was asked keeps waiting. -/
def settle (c : Conversation) : Segment :=
  let phase := if c.phase = .awaitingInterceptor then .awaitingInterceptor else .idle
  ⟨{ c with isActive := false, isThinking := false, phase }, [.phaseChanged run phase], none⟩

/-- Delivers a queue up to its first turn. -/
def drain (c : Conversation) : List Entry → Segment
  | [] => settle run { c with queue := [] }
  | .step (.turn id components) :: rest =>
    let (c, events) := enter run { c with queue := rest } .thinking
    ⟨c, events, some (.beforeTurn id components)⟩
  | e :: rest => (drain (c.commit e) rest).after (e.announced run)

/-- Begins a component: a text with its first character, and all else as a whole. -/
def begin (c : Conversation) (d : Component) (rest : List Component) : Segment :=
  match d.characters with
  | ch :: chars =>
    ⟨c.beginStream d.id, [.phaseChanged run .streaming], some (.beforeCharacter d ch chars rest)⟩
  | [] =>
    let (c, events) := enter run c .instantReveal
    ⟨c, events, some (.beforeReveal d rest)⟩

/-- Goes on behind a component, with a pause unless one prompt follows another. -/
def proceed (c : Conversation) (previous : Component) : List Component → Segment
  | [] => drain run c c.queue
  | d :: rest =>
    if previous.isPrompt && d.isPrompt then begin run c d rest
    else
      let (c, events) := enter run c .pausedBetween
      ⟨c, events, some (.beforeComponent d rest)⟩

/-- Commits a turn and begins its first component. -/
def openTurn (c : Conversation) (id : StepId) (components : List Component) : Segment :=
  let e := Entry.step (.turn id components)
  let c := { c with isThinking := false }.commit e
  let next := match components with
    | [] => drain run c c.queue
    | d :: rest => begin run c d rest
  next.after (e.announced run)

/-- Shows a component as a whole. -/
def showWhole (c : Conversation) (d : Component) (rest : List Component) : Segment :=
  (proceed run (c.reveal d.id) d rest).after [.componentRevealed run d.id]

/-- Shows one more character of a text, and goes on behind the text after its last. -/
def write (c : Conversation) (d : Component) (ch : Char) (chars : List Char)
    (rest : List Component) : Segment :=
  let c := c.push ch
  let progress := c.streaming.toList.map fun s => Event.streamProgress run d.id s.text
  match chars with
  | [] => (proceed run c.finishStream d rest).after (progress ++ [.componentRevealed run d.id])
  | ch :: chars => ⟨c, progress, some (.beforeCharacter d ch chars rest)⟩

/-- What a run does when a pause is over. -/
def resumeFrom (c : Conversation) : Pause → Segment
  | .unstarted => drain run c c.queue
  | .beforeTurn id components => openTurn run c id components
  | .beforeComponent d rest => begin run c d rest
  | .beforeReveal d rest => showWhole run c d rest
  | .beforeCharacter d ch chars rest => write run c d ch chars rest

end Conversation

end Dialogue
