import Dialogue.Condition
import Dialogue.Conversation.Entry
import Dialogue.Intent

/-! Walks through a flow. One thing that the user does is answered by a batch of entries: those of
the steps along the connections followed, up to where the flow waits, lacks a variable or ends, or
where the walk has become too long. -/

namespace Dialogue

/-- Why a walk ended. -/
inductive StopReason where
  | awaitingInput
  | awaitingVariable
  | endOfChain
  | noIntentMatch
  | danglingConnection
  | hopLimit
  deriving DecidableEq, Repr

namespace StopReason

def name : StopReason → String
  | awaitingInput => "awaiting_input"
  | awaitingVariable => "awaiting_variable"
  | endOfChain => "end_of_chain"
  | noIntentMatch => "no_intent_match"
  | danglingConnection => "dangling_connection"
  | hopLimit => "hop_limit"

/-- Whether the flow is to blame. -/
def isMalformed : StopReason → Bool
  | danglingConnection | hopLimit => true
  | _ => false

def all : List StopReason :=
  [awaitingInput, awaitingVariable, endOfChain, noIntentMatch, danglingConnection, hopLimit]

def toJson (r : StopReason) : Json := .string r.name

def decode : Decoder StopReason := Decoder.word (all.map fun r => (r.name, r))

end StopReason

/-- How long one walk may be. -/
structure TraversalLimits where
  maxHops : Nat
  deriving DecidableEq, Repr

namespace TraversalLimits

def standard : TraversalLimits := ⟨20⟩

instance : Inhabited TraversalLimits := ⟨standard⟩

def toJson (l : TraversalLimits) : Json := .object [("max_hops", .ofNat l.maxHops)]

def shape : Shape TraversalLimits :=
  (Shape.pure TraversalLimits.mk).field (.required "max_hops" (.nat "usize"))

def decode : Decoder TraversalLimits := shape.decoder "struct TraversalLimits"

end TraversalLimits

/-- Where a walk leaves from, and by what: a handle, typed text, or neither. -/
structure TraversalRequest where
  origin : StepId
  handle : Option String := none
  input : Option String := none
  /-- What the user said is shown already, so that a user turn reached at once is left out. -/
  bubbleShown : Bool := false
  deriving DecidableEq, Repr

/-- What a walk came to. -/
structure Traversal where
  entries : List Entry
  cursor : StepId
  stop : StopReason
  hops : Nat
  deriving DecidableEq, Repr

namespace Traversal

/-- The question that the walk ended with. -/
def interceptor? (t : Traversal) : Option Interceptor :=
  t.entries.reverse.findSome? Entry.interceptor?

/-- The walk with one more hop before it, which adds `entries`. -/
def after (entries : List Entry) (t : Traversal) : Traversal :=
  { t with entries := entries ++ t.entries, hops := t.hops + 1 }

end Traversal

/-- What walks go by: the flow, the variables, how text is matched, and the id of a question that
a walk may raise. -/
structure Walker where
  graph : FlowGraph
  store : Variables
  intent : IntentConfig
  interceptorId : String

namespace Walker

/-- The first connection into the user turn that typed text means. -/
def matchIntent? (w : Walker) (cursor : StepId) (input : String) : Option Connection :=
  let exits := w.graph.routable cursor
  (w.intent.bestStep? w.graph input (exits.map Connection.target)).bind fun found =>
    exits.find? fun c => c.target == found.id

/-- The connection to follow. A handle goes before typed text. -/
def exit (w : Walker) (cursor : StepId) (handle input : Option String) :
    Except StopReason Connection :=
  match handle, input with
  | none, some text =>
    match w.matchIntent? cursor text with
    | some c => .ok c
    | none => .error .noIntentMatch
  | handle, _ =>
    match w.graph.next? cursor handle with
    | some c => .ok c
    | none => .error .endOfChain

/-- What reaching a step adds, and by which handle to go on, if at all. -/
def arrive (w : Walker) (input : Option String) (bubbleShown : Bool) (s : Step) :
    List Entry × Except StopReason (Option String) :=
  match s with
  | .start _ | .note .. => ([], .ok none)
  | .turn id _ =>
    ([.step s], if w.graph.awaitsInputAfter id then .error .awaitingInput else .ok none)
  | .userTurn .. => (if bubbleShown then [] else [.step s], .ok none)
  | .condition id branches =>
    match Condition.resolve branches w.store input with
    | .branch branch => ([.step s], .ok (some branch))
    | .missing name =>
      ([.step s, .interceptor ⟨w.interceptorId, name, branches, id⟩], .error .awaitingVariable)
    | .noBranches => ([.step s], .error .endOfChain)

/-- Walks on from a step, so many hops at most. Typed text, and that it is shown already, count for
the first hop alone. -/
def walk (w : Walker) (cursor : StepId) (handle input : Option String) (bubbleShown : Bool)
    (hops : Nat) : Traversal :=
  match w.exit cursor handle input with
  | .error stop => ⟨[], cursor, stop, 0⟩
  | .ok c =>
    match hops with
    | 0 => ⟨[], cursor, .hopLimit, 0⟩
    | hops + 1 =>
      match w.graph.step? c.target with
      | none => ⟨[], cursor, .danglingConnection, 1⟩
      | some s =>
        match w.arrive input bubbleShown s with
        | (entries, .error stop) => ⟨entries, s.id, stop, 1⟩
        | (entries, .ok handle) => (w.walk s.id handle none false hops).after entries

/-- Answers a request. -/
def traverse (w : Walker) (limits : TraversalLimits) (r : TraversalRequest) : Traversal :=
  w.walk r.origin r.handle r.input r.bubbleShown limits.maxHops

end Walker

end Dialogue
