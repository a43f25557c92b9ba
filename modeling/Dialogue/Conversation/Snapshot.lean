import Dialogue.Conversation.State

/-! What a conversation shows of itself: all that is needed to render it. -/

namespace Dialogue

/-- A conversation as it is rendered, under the number of its live run. -/
structure Snapshot where
  history : List Entry
  bindings : List Variable
  visible : NameSet
  isThinking : Bool
  streaming : Option Streaming
  phase : Phase
  run : Nat
  pending : Option Interceptor
  queued : Nat
  deriving DecidableEq, Repr

namespace Conversation

def snapshot (c : Conversation) (run : Nat) : Snapshot where
  history := c.history
  bindings := c.store.sorted
  visible := c.visible
  isThinking := c.isThinking
  streaming := c.streaming
  phase := c.phase
  run
  pending := c.pending?
  queued := c.queue.length

end Conversation

namespace Snapshot

def variableValue? (s : Snapshot) (name : String) : Option String :=
  (s.bindings.find? fun v => v.name == name).map (·.value)

/-- The text on its way as far as it is shown, which is none where there is no such text. -/
def streamingText (s : Snapshot) : String :=
  (s.streaming.map (·.text)).getD ""

def toJson (s : Snapshot) : Json :=
  .object [("history", .array (s.history.map Entry.toJson)),
    ("variables", .array (s.bindings.map Variable.toJson)),
    ("visibleComponentIds", .strings s.visible.names),
    ("isThinking", .bool s.isThinking),
    ("streamingComponentId", .ofOption (fun t => .string t.componentId) s.streaming),
    ("currentStreamingText", .string s.streamingText),
    ("phase", s.phase.toJson),
    ("run", .ofNat s.run),
    ("pendingInterceptor", .ofOption Interceptor.toJson s.pending),
    ("queued", .ofNat s.queued)]

end Snapshot

end Dialogue
