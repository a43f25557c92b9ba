import Dialogue.Flow.Step

/-! A flow that can be walked: its steps have distinct ids, and both steps and the connections that
leave a step are found by id. The index agrees with a search through the flow. -/

namespace Dialogue

/-- Why a flow cannot be indexed. -/
inductive FlowError where
  | duplicateStep (id : StepId)
  | emptyStepId
  deriving DecidableEq, Repr

namespace FlowError

def message : FlowError → String
  | duplicateStep id => s!"step id `{id}` is declared more than once"
  | emptyStepId => "step id must not be empty"

end FlowError

namespace Flow

/-- The first step, in order, whose id is empty or one of those `seen`. -/
def problemAfter (seen : List StepId) : List Step → Option FlowError
  | [] => none
  | s :: rest =>
    if s.id = "" then some .emptyStepId
    else if s.id ∈ seen then some (.duplicateStep s.id)
    else problemAfter (s.id :: seen) rest

def problem? (f : Flow) : Option FlowError := problemAfter [] f.steps

/-- Steps by id. -/
def index (steps : List Step) : Keyed Step :=
  steps.foldl (fun m s => m.insert s.id s) .empty

/-- Connections by source, in order. -/
def exits (connections : List Connection) : Keyed (List Connection) :=
  connections.foldl (fun m c => m.insert c.source ((m.get? c.source).getD [] ++ [c])) .empty

end Flow

/-- A flow with its index. -/
structure FlowGraph where
  flow : Flow
  sound : flow.problem? = none
  index : Keyed Step
  index_eq : index = Flow.index flow.steps
  exits : Keyed (List Connection)
  exits_eq : exits = Flow.exits flow.connections

namespace FlowGraph

def ofFlow (f : Flow) : Except FlowError FlowGraph :=
  match h : f.problem? with
  | some e => .error e
  | none => .ok ⟨f, h, _, rfl, _, rfl⟩

def empty : FlowGraph := ⟨.empty, rfl, _, rfl, _, rfl⟩

instance : Inhabited FlowGraph := ⟨empty⟩

def steps (g : FlowGraph) : List Step := g.flow.steps

def connections (g : FlowGraph) : List Connection := g.flow.connections

def step? (g : FlowGraph) (id : StepId) : Option Step := g.index.get? id

def contains (g : FlowGraph) (id : StepId) : Bool := g.index.contains id

def size (g : FlowGraph) : Nat := g.steps.length

/-- The first start step, in order. -/
def start? (g : FlowGraph) : Option Step := g.steps.find? Step.isStart

/-- The connections that leave a step, in order. -/
def outgoing (g : FlowGraph) (source : StepId) : List Connection :=
  (g.exits.get? source).getD []

/-- Whether a connection leads to a note. -/
def leadsToNote (g : FlowGraph) (c : Connection) : Bool :=
  (g.step? c.target).any Step.isNote

/-- The connections that a conversation can follow: all but those into notes. One into a missing
step is among them. -/
def routable (g : FlowGraph) (source : StepId) : List Connection :=
  (g.outgoing source).filter fun c => !g.leadsToNote c

/-- The first connection that can be followed, by the given handle if there is one. -/
def next? (g : FlowGraph) (source : StepId) : Option String → Option Connection
  | some handle => (g.routable source).find? fun c => c.handle = some handle
  | none => (g.routable source).head?

/-- Whether a user turn follows the step, so that the conversation waits there. -/
def awaitsInputAfter (g : FlowGraph) (id : StepId) : Bool :=
  (g.routable id).any fun c => (g.step? c.target).any Step.isUserTurn

end FlowGraph

end Dialogue
