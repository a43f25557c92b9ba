import Dialogue.Event.Basic

/-! The document form of events, and the record that a log keeps of one. -/

namespace Dialogue.Event

def tag : Event → String
  | phaseChanged .. => "phase_changed"
  | stepCommitted .. => "step_committed"
  | componentRevealed .. => "component_revealed"
  | streamProgress .. => "stream_progress"
  | interceptorRaised .. => "interceptor_raised"
  | variableUpdated .. => "variable_updated"
  | noIntentMatch _ => "no_intent_match"
  | stopped .. => "stopped"
  | diagnostic .. => "diagnostic"

/-- The members of an event's document behind its tag. -/
def members : Event → List (String × Json)
  | phaseChanged run phase => [("run", run.toJson), ("phase", phase.toJson)]
  | stepCommitted run id kind =>
    [("run", run.toJson), ("entry_id", .string id), ("kind", .string kind.name)]
  | componentRevealed run id => [("run", run.toJson), ("component_id", .string id)]
  | streamProgress run id text =>
    [("run", run.toJson), ("component_id", .string id), ("text", .string text)]
  | interceptorRaised run id name step =>
    [("run", run.toJson), ("interceptor_id", .string id), ("variable_name", .string name),
      ("step_id", .string step)]
  | variableUpdated name value => [("name", .string name), ("value", .string value)]
  | noIntentMatch input => [("input", .string input)]
  | stopped run truncated =>
    [("run", run.toJson), ("truncated_component", .ofOption .string truncated)]
  | diagnostic scope message => [("scope", .string scope), ("message", .string message)]

def toJson (e : Event) : Json := .object (("event", .string e.tag) :: e.members)

/-- What a log keeps of an event: its tag and its other members apart, and when it was logged. -/
def record (e : Event) (time : String) : Json :=
  let (type, metadata) := e.toJson.remove "event"
  .object [("type", type), ("scope", .string e.scope), ("message", .string e.message),
    ("timestamp", .string time), ("metadata", metadata)]

def runField : Field Run := .required "run" Run.decode

def phaseChangedShape : Shape Event :=
  ((Shape.pure phaseChanged).field runField).field (.required "phase" Phase.decode)

def stepCommittedShape : Shape Event :=
  (((Shape.pure stepCommitted).field runField).field (.required "entry_id" .string)).field
    (.required "kind" EntryKind.decode)

def componentRevealedShape : Shape Event :=
  ((Shape.pure componentRevealed).field runField).field (.required "component_id" .string)

def streamProgressShape : Shape Event :=
  (((Shape.pure streamProgress).field runField).field (.required "component_id" .string)).field
    (.required "text" .string)

def interceptorRaisedShape : Shape Event :=
  ((((Shape.pure interceptorRaised).field runField).field
    (.required "interceptor_id" .string)).field
    (.required "variable_name" .string)).field
    (.required "step_id" .string)

def variableUpdatedShape : Shape Event :=
  ((Shape.pure variableUpdated).field (.required "name" .string)).field
    (.required "value" .string)

def noIntentMatchShape : Shape Event :=
  (Shape.pure noIntentMatch).field (.required "input" .string)

def stoppedShape : Shape Event :=
  ((Shape.pure stopped).field runField).field (.nullable "truncated_component" .string)

def diagnosticShape : Shape Event :=
  ((Shape.pure diagnostic).field (.required "scope" .string)).field
    (.required "message" .string)

def variants : List (Variant Event) :=
  [⟨"phase_changed", "PhaseChanged", phaseChangedShape⟩,
    ⟨"step_committed", "StepCommitted", stepCommittedShape⟩,
    ⟨"component_revealed", "ComponentRevealed", componentRevealedShape⟩,
    ⟨"stream_progress", "StreamProgress", streamProgressShape⟩,
    ⟨"interceptor_raised", "InterceptorRaised", interceptorRaisedShape⟩,
    ⟨"variable_updated", "VariableUpdated", variableUpdatedShape⟩,
    ⟨"no_intent_match", "NoIntentMatch", noIntentMatchShape⟩,
    ⟨"stopped", "Stopped", stoppedShape⟩,
    ⟨"diagnostic", "Diagnostic", diagnosticShape⟩]

def decode : Decoder Event := Union.decoder ⟨"Event", "event", variants⟩

end Dialogue.Event
