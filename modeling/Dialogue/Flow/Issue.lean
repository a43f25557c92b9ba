import Dialogue.Flow.Graph

/-! Faults of a flow that a walk tolerates and its author should mend. -/

namespace Dialogue

inductive Issue where
  | missingStart
  | multipleStarts (steps : List StepId)
  | unknownSource (source target : StepId)
  | danglingConnection (source target : StepId)
  | multipleDefaults (step : StepId)
  | emptyCondition (step : StepId)
  deriving DecidableEq, Repr

namespace Issue

def name : Issue → String
  | missingStart => "missing_start"
  | multipleStarts _ => "multiple_starts"
  | unknownSource .. => "unknown_source"
  | danglingConnection .. => "dangling_connection"
  | multipleDefaults _ => "multiple_defaults"
  | emptyCondition _ => "empty_condition"

def message : Issue → String
  | missingStart => "flow has no start step"
  | multipleStarts steps =>
    let count := steps.length
    let listed := ", ".intercalate steps
    s!"flow has {count} start steps: {listed}"
  | unknownSource source target => s!"connection {source} -> {target} has an unknown source"
  | danglingConnection source target =>
    s!"connection {source} -> {target} points at a missing step"
  | multipleDefaults step => s!"condition {step} has more than one default branch"
  | emptyCondition step => s!"condition {step} has no branches"

end Issue

namespace FlowGraph

/-- A flow has one start. -/
def startIssues (g : FlowGraph) : List Issue :=
  match (g.steps.filter Step.isStart).map Step.id with
  | [] => [.missingStart]
  | [_] => []
  | ids => [.multipleStarts ids]

/-- What is wrong with the ends of one connection. -/
def endIssues (g : FlowGraph) (c : Connection) : List Issue :=
  (if g.contains c.source then [] else [.unknownSource c.source c.target]) ++
    if g.contains c.target then [] else [.danglingConnection c.source c.target]

/-- A connection joins steps of the flow. Of connections with the same ends only the first is
looked at. -/
def connectionIssues (g : FlowGraph) (seen : List (StepId × StepId)) :
    List Connection → List Issue
  | [] => []
  | c :: rest =>
    if (c.source, c.target) ∈ seen then g.connectionIssues seen rest
    else g.endIssues c ++ g.connectionIssues ((c.source, c.target) :: seen) rest

/-- A condition has branches, and at most one default among them. -/
def branchIssues : Step → List Issue
  | .condition id branches =>
    if branches.isEmpty then [.emptyCondition id]
    else if 1 < branches.countP Branch.isDefault then [.multipleDefaults id]
    else []
  | _ => []

/-- All that is wrong with a flow: its starts, its connections, its conditions. -/
def validate (g : FlowGraph) : List Issue :=
  g.startIssues ++ g.connectionIssues [] g.connections ++ g.steps.flatMap branchIssues

end FlowGraph

end Dialogue
