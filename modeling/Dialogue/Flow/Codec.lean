import Dialogue.Flow.Issue
import Dialogue.Json.Union
import Dialogue.Json.Printer

/-! The document form of flows: what an editor writes, and how each part is read back. -/

namespace Dialogue

/-- A member that is written only where there is a value. -/
def Json.optionalMember (name : String) (value : Option String) : List (String × Json) :=
  match value with
  | some s => [(name, .string s)]
  | none => []

namespace EntryKind

def names : List (String × EntryKind) :=
  [start, turn, userTurn, condition, note, feedback, interceptor, userMessage].map
    fun k => (k.name, k)

def decode : Decoder EntryKind := Decoder.word names

end EntryKind

namespace Guard

def toJson (g : Guard) : Json :=
  .object [("variable", .string g.name), ("value", .string g.value)]

def shape : Shape Guard :=
  ((Shape.pure Guard.mk).field (.required "variable" .string)).field (.required "value" .string)

def decode : Decoder Guard := shape.decoder "struct BranchLogic"

end Guard

namespace Branch

def toJson (b : Branch) : Json :=
  .object <| [("id", .string b.id), ("isDefault", .bool b.isDefault)] ++
    Json.optionalMember "condition" b.label ++
    match b.guard with
    | some g => [("logic", g.toJson)]
    | none => []

def shape : Shape Branch :=
  ((((Shape.pure Branch.mk).field (.required "id" .string)).field
    (.defaulted "isDefault" .bool false)).field
    (.optional "condition" .string)).field
    (.optional "logic" Guard.decode)

def decode : Decoder Branch := shape.decoder "struct Branch"

end Branch

namespace Component

def toJson : Component → Json
  | message id text =>
    .object [("type", .string "message"), ("id", .string id), ("text", .string text)]
  | info id title body =>
    .object [("type", .string "infoMessage"), ("id", .string id), ("title", .string title),
      ("body", .string body)]
  | prompt id label handle =>
    .object <| [("type", .string "prompt"), ("id", .string id), ("label", .string label)] ++
      Json.optionalMember "sourceHandle" handle
  | card id title content =>
    .object [("type", .string "card"), ("id", .string id), ("title", .string title),
      ("content", content.value)]

/-- Any value, in canonical form. -/
def decodeContent : Decoder Json.Canonical := fun h d =>
  Json.toCanonical <$> Decoder.json h d

def messageShape : Shape Component :=
  ((Shape.pure message).field (.required "id" .string)).field (.required "text" .string)

def infoShape : Shape Component :=
  (((Shape.pure info).field (.required "id" .string)).field
    (.defaulted "title" .string "")).field
    (.required "body" .string)

def promptShape : Shape Component :=
  (((Shape.pure prompt).field (.required "id" .string)).field
    (.required "label" .string)).field
    (.optional "sourceHandle" .string)

def cardShape : Shape Component :=
  (((Shape.pure card).field (.required "id" .string)).field
    (.defaulted "title" .string "")).field
    (.defaulted "content" decodeContent Json.null.toCanonical)

def variants : List (Variant Component) :=
  [⟨"message", "Message", messageShape⟩, ⟨"infoMessage", "InfoMessage", infoShape⟩,
    ⟨"prompt", "Prompt", promptShape⟩, ⟨"card", "Card", cardShape⟩]

def decode : Decoder Component := Union.decoder ⟨"Component", "type", variants⟩

end Component

namespace Step

def toJson : Step → Json
  | start id => .object [("type", .string "start"), ("id", .string id)]
  | turn id components =>
    .object [("type", .string "turn"), ("id", .string id),
      ("components", .array (components.map Component.toJson))]
  | userTurn id label trigger =>
    .object <| [("type", .string "user-turn"), ("id", .string id), ("label", .string label)] ++
      Json.optionalMember "trigger" trigger
  | condition id branches =>
    .object [("type", .string "condition"), ("id", .string id),
      ("branches", .array (branches.map Branch.toJson))]
  | note id text =>
    .object [("type", .string "note"), ("id", .string id), ("text", .string text)]

def startShape : Shape Step := (Shape.pure start).field (.required "id" .string)

def turnShape : Shape Step :=
  ((Shape.pure turn).field (.required "id" .string)).field
    (.defaulted "components" (.list Component.decode) [])

def userTurnShape : Shape Step :=
  (((Shape.pure userTurn).field (.required "id" .string)).field
    (.required "label" .string)).field
    ((Field.optional "trigger" .string).orNamed "triggerPhrase")

def conditionShape : Shape Step :=
  ((Shape.pure condition).field (.required "id" .string)).field
    (.defaulted "branches" (.list Branch.decode) [])

def noteShape : Shape Step :=
  ((Shape.pure note).field (.required "id" .string)).field (.defaulted "text" .string "")

def variants : List (Variant Step) :=
  [⟨"start", "Start", startShape⟩, ⟨"turn", "Turn", turnShape⟩,
    ⟨"user-turn", "UserTurn", userTurnShape⟩, ⟨"condition", "Condition", conditionShape⟩,
    ⟨"note", "Note", noteShape⟩]

def decode : Decoder Step := Union.decoder ⟨"Step", "type", variants⟩

end Step

namespace Connection

def toJson (c : Connection) : Json :=
  .object <| [("source", .string c.source), ("target", .string c.target)] ++
    Json.optionalMember "sourceHandle" c.handle

def shape : Shape Connection :=
  (((Shape.pure Connection.mk).field (.required "source" .string)).field
    (.required "target" .string)).field
    (.optional "sourceHandle" .string)

def decode : Decoder Connection := shape.decoder "struct Connection"

end Connection

namespace Flow

def toJson (f : Flow) : Json :=
  .object [("steps", .array (f.steps.map Step.toJson)),
    ("connections", .array (f.connections.map Connection.toJson))]

def shape : Shape Flow :=
  ((Shape.pure Flow.mk).field (.defaulted "steps" (.list Step.decode) [])).field
    (.defaulted "connections" (.list Connection.decode) [])

def decode : Decoder Flow := shape.decoder "struct FlowDefinition"

/-- The document of a flow. -/
def toText (f : Flow) : String := f.toJson.text

def ofText (s : String) : Except Fault Flow := decode.ofText s

end Flow

/-- Why a text gives no graph: it is not the document of a flow, or the flow cannot be indexed. -/
inductive LoadError where
  | fault (f : Fault)
  | flow (e : FlowError)
  deriving DecidableEq, Repr

namespace FlowGraph

/-- The graph of the flow that a text holds. -/
def ofText (s : String) : Except LoadError FlowGraph := do
  let f ← (Flow.ofText s).mapError .fault
  (ofFlow f).mapError .flow

end FlowGraph

namespace Issue

/-- The document of an issue: its name and the steps concerned. -/
def toJson (i : Issue) : Json :=
  .object <| ("issue", .string i.name) :: match i with
    | missingStart => []
    | multipleStarts steps => [("steps", .strings steps)]
    | unknownSource source target | danglingConnection source target =>
      [("source", .string source), ("target", .string target)]
    | multipleDefaults step | emptyCondition step => [("step", .string step)]

end Issue

end Dialogue
