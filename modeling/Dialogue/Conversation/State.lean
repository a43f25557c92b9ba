import Dialogue.Conversation.Cut
import Dialogue.Conversation.Phase
import Dialogue.Variables

/-! The state of a conversation: its history, what is still to be delivered, and what is shown.
History only grows, but that a question leaves it once it is answered or replaced, and that a stop
cuts the text on its way. -/

namespace Dialogue

/-- A component on its way, and as much of its text as is shown. -/
structure Streaming where
  componentId : ComponentId
  text : String
  deriving DecidableEq, Repr

namespace Streaming

def toJson (s : Streaming) : Json :=
  .object [("componentId", .string s.componentId), ("partialText", .string s.text)]

def shape : Shape Streaming :=
  ((Shape.pure Streaming.mk).field (.required "componentId" .string)).field
    (.required "partialText" .string)

def decode : Decoder Streaming := shape.decoder "struct StreamingState"

end Streaming

structure Conversation where
  history : List Entry := []
  store : Variables := .empty
  visible : NameSet := .empty
  queue : List Entry := []
  streaming : Option Streaming := none
  isThinking : Bool := false
  phase : Phase := .idle
  /-- The step that typed text goes on from. -/
  cursor : Option StepId := none
  /-- Whether a run delivers the queue. -/
  isActive : Bool := false
  cuts : List Cut := []
  deriving DecidableEq, Repr, Inhabited

namespace Conversation

def empty : Conversation := {}

/-- Appends an entry to history. A question makes the conversation wait for its answer. -/
def commit (c : Conversation) (e : Entry) : Conversation :=
  { c with
    history := c.history ++ [e]
    phase := if e.interceptor?.isSome then .awaitingInterceptor else c.phase }

def reveal (c : Conversation) (id : ComponentId) : Conversation :=
  { c with visible := c.visible.insert id }

def isVisible (c : Conversation) (id : ComponentId) : Bool := id ∈ c.visible

/-- Appends an entry and shows all its components. -/
def commitShown (c : Conversation) (e : Entry) : Conversation :=
  { c with visible := c.visible.insertAll (e.components.map Component.id) }.commit e

/-- Appends a batch at once, with all components shown. -/
def apply (c : Conversation) (batch : List Entry) : Conversation :=
  batch.foldl commitShown c

def enqueue (c : Conversation) (batch : List Entry) : Conversation :=
  { c with queue := c.queue ++ batch }

/-- The questions in history and queue, in order. -/
def interceptors (c : Conversation) : List Interceptor :=
  (c.history ++ c.queue).filterMap Entry.interceptor?

/-- The question that waits for an answer, be it in history or still in the queue. -/
def pending? (c : Conversation) : Option Interceptor := c.interceptors.head?

/-- Phase of a conversation whose question was taken away. -/
def phaseWithout (c : Conversation) : Phase :=
  if c.phase = .awaitingInterceptor then .idle else c.phase

/-- Takes the question with an id out of history, or else out of the queue. -/
def take? (c : Conversation) (id : String) : Option (Interceptor × Conversation) :=
  match (c.history.find? (Entry.isInterceptor id)).bind Entry.interceptor? with
  | some i =>
    some (i, { c with
      history := c.history.eraseP (Entry.isInterceptor id)
      phase := c.phaseWithout })
  | none =>
    match (c.queue.find? (Entry.isInterceptor id)).bind Entry.interceptor? with
    | some i =>
      some (i, { c with
        queue := c.queue.eraseP (Entry.isInterceptor id)
        phase := c.phaseWithout })
    | none => none

/-- Takes the pending question out, so that another can replace it. -/
def takePending? (c : Conversation) : Option (Interceptor × Conversation) :=
  c.pending?.bind fun i => c.take? i.id

/-- Begins to show a component's text, of which nothing is seen yet. -/
def beginStream (c : Conversation) (id : ComponentId) : Conversation :=
  { c with
    visible := c.visible.insert id
    streaming := some ⟨id, ""⟩
    isThinking := false
    phase := .streaming }

/-- Shows one more character of the text on its way. -/
def push (c : Conversation) (ch : Char) : Conversation :=
  { c with streaming := c.streaming.map fun s => { s with text := s.text.push ch } }

def finishStream (c : Conversation) : Conversation :=
  { c with streaming := none }

def setVariable (c : Conversation) (v : Variable) : Conversation :=
  { c with store := c.store.set v }

/-- The text of the newest step's component with an id, if it has a text. -/
def componentText? (c : Conversation) (id : ComponentId) : Option String :=
  ((c.history.reverse.flatMap Entry.components).find? fun d => d.id == id).bind
    Component.streamedText?

/-- Whether anything is on its way to the user. -/
def isDelivering (c : Conversation) : Bool :=
  c.isActive || !c.queue.isEmpty || c.isThinking || c.streaming.isSome

/-- The cut that a stop makes: of the text on its way, what was shown is left. -/
def cut? (c : Conversation) : Option Cut :=
  c.streaming.bind fun s => Cut.ofNewest? c.history s.componentId s.text

/-- Gives up what is on its way, and says so by a feedback entry. -/
def halt (c : Conversation) (marker : Feedback) : Conversation :=
  { c with
    history := (c.cut?.elim c.history fun cut => cut.apply c.history) ++ [.feedback marker]
    cuts := c.cuts ++ c.cut?.toList
    queue := []
    streaming := none
    isThinking := false
    isActive := false
    phase := .stopped }

/-- What a stop did. -/
structure StopReport where
  truncated : Option Streaming
  discarded : Nat
  feedbackId : String
  deriving DecidableEq, Repr

/-- The text of the feedback that a stop leaves. -/
def stoppedText : String := "Response stopped"

/-- Stops what is on its way, if there is anything. -/
def stop? (c : Conversation) (marker : Feedback) : Option (StopReport × Conversation) :=
  if c.isDelivering then some (⟨c.streaming, c.queue.length, marker.id⟩, c.halt marker) else none

@[simp] theorem history_commit (c : Conversation) (e : Entry) :
    (c.commit e).history = c.history ++ [e] := rfl

@[simp] theorem history_commitShown (c : Conversation) (e : Entry) :
    (c.commitShown e).history = c.history ++ [e] := rfl

@[simp] theorem apply_cons (c : Conversation) (e : Entry) (rest : List Entry) :
    c.apply (e :: rest) = (c.commitShown e).apply rest := rfl

@[simp] theorem history_apply (c : Conversation) (batch : List Entry) :
    (c.apply batch).history = c.history ++ batch := by
  induction batch generalizing c with
  | nil => simp [apply]
  | cons e rest ih => simp [ih]

end Conversation

end Dialogue
