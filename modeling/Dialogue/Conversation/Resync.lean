import Dialogue.Conversation.State
import Dialogue.Flow.Graph

/-! A conversation after an edit of its flow. Entries follow the flow: steps take their new form,
questions take the branches of their condition, and those without a step in the flow go. Texts that
were cut stay cut. -/

namespace Dialogue

/-- How many entries took the form that an edit gave them, and how many had no step left. -/
structure ResyncReport where
  patched : Nat
  dropped : Nat
  deriving DecidableEq, Repr

namespace Entry

/-- Whether the entry comes from a step of the flow. -/
def isPatchable : Entry → Bool
  | step _ | interceptor _ => true
  | _ => false

/-- The entry as a flow has it. -/
def patch? (g : FlowGraph) : Entry → Option Entry
  | step s => (g.step? s.id).map step
  | interceptor i =>
    match g.step? i.stepId with
    | some (.condition _ branches) => some (interceptor { i with branches })
    | _ => none
  | e => some e

/-- The components that an entry gains. -/
def gains (g : FlowGraph) : Entry → List ComponentId
  | step s =>
    match g.step? s.id with
    | some fresh =>
      (fresh.components.map Component.id).filter fun id =>
        !(s.components.map Component.id).contains id
    | none => []
  | _ => []

end Entry

namespace Conversation

/-- Makes all cuts in a history, the oldest first. -/
def recut (cuts : List Cut) (history : List Entry) : List Entry :=
  cuts.foldl (fun history cut => cut.apply history) history

/-- History as a flow has it, but for what was cut. -/
def patchedHistory (c : Conversation) (g : FlowGraph) : List Entry :=
  recut c.cuts (c.history.filterMap (Entry.patch? g))

/-- The components shown after an edit: those still there, and, if nothing is on its way, those
that entries gained. -/
def patchedVisible (c : Conversation) (g : FlowGraph) : NameSet :=
  let present := (c.patchedHistory g).flatMap fun e => e.components.map Component.id
  let kept := c.visible.filter present.contains
  if c.isActive then kept else kept.insertAll (c.history.flatMap (Entry.gains g))

/-- Follows an edit of the flow. -/
def resync (c : Conversation) (g : FlowGraph) : Conversation :=
  let history := c.patchedHistory g
  let queue := c.queue.filterMap (Entry.patch? g)
  let asks := (history ++ queue).any fun e => e.interceptor?.isSome
  { c with
    history
    queue
    visible := c.patchedVisible g
    cursor := c.cursor.filter g.contains
    phase := if asks then c.phase else c.phaseWithout }

def resyncReport (c : Conversation) (g : FlowGraph) : ResyncReport :=
  let entries := (c.history ++ c.queue).filter Entry.isPatchable
  let patched := entries.countP fun e => (e.patch? g).isSome
  ⟨patched, entries.length - patched⟩

end Conversation

end Dialogue
