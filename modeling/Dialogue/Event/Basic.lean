import Dialogue.Conversation.Phase
import Dialogue.Flow.Codec
import Dialogue.Run
import Dialogue.Text.Quoted

/-! What a conversation announces to those who follow it. -/

namespace Dialogue

/-- An announcement. All that a run brings about bears the run. -/
inductive Event where
  | phaseChanged (run : Run) (phase : Phase)
  | stepCommitted (run : Run) (entryId : String) (kind : EntryKind)
  | componentRevealed (run : Run) (componentId : ComponentId)
  | streamProgress (run : Run) (componentId : ComponentId) (text : String)
  | interceptorRaised (run : Run) (interceptorId variableName : String) (stepId : StepId)
  | variableUpdated (name value : String)
  | noIntentMatch (input : String)
  | stopped (run : Run) (truncated : Option ComponentId)
  | diagnostic (scope message : String)
  deriving DecidableEq, Repr, Inhabited

namespace Event

/-- The run that the event belongs to. -/
def run? : Event → Option Run
  | phaseChanged run _ | stepCommitted run _ _ | componentRevealed run _ | streamProgress run _ _
  | interceptorRaised run _ _ _ | stopped run _ => some run
  | variableUpdated .. | noIntentMatch _ | diagnostic .. => none

/-- What the event is about. -/
def scope : Event → String
  | phaseChanged .. => "phase"
  | stepCommitted .. => "history"
  | componentRevealed .. => "reveal"
  | streamProgress .. => "stream"
  | interceptorRaised .. => "interceptor"
  | variableUpdated .. => "variable"
  | noIntentMatch _ => "intent"
  | stopped .. => "stop"
  | diagnostic scope _ => scope

def message : Event → String
  | phaseChanged _ phase =>
    let title := phase.title
    s!"phase -> {title}"
  | stepCommitted _ id kind =>
    let kind := kind.name
    s!"{kind} {id}"
  | componentRevealed _ id => s!"{id} visible"
  | streamProgress _ _ text => text
  | interceptorRaised _ _ name step => s!"{step} needs {name}"
  | variableUpdated name value => s!"{name} = {value}"
  | noIntentMatch input =>
    let input := Text.Quoted.encode input
    s!"no match for {input}"
  | stopped _ (some id) => s!"stopped; {id} truncated"
  | stopped _ none => "stopped"
  | diagnostic _ message => message

/-- The message, after the run where there is one. -/
def describe (e : Event) : String :=
  let message := e.message
  match e.run? with
  | some run =>
    let run := run.describe
    s!"[{run}] {message}"
  | none => message

end Event

end Dialogue
