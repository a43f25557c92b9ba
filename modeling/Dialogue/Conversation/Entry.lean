import Dialogue.Flow.Codec
import Dialogue.Timestamp

/-! Entries of a conversation's history: steps of the flow, and what the conversation itself adds,
which is questions, what the user said, and feedback. -/

namespace Dialogue

/-- A question for the variable that a condition lacks. -/
structure Interceptor where
  id : String
  variableName : String
  branches : List Branch
  stepId : StepId
  deriving DecidableEq, Repr

/-- A note of the system, such as that a response was stopped. -/
structure Feedback where
  id : String
  text : String
  time : Timestamp
  deriving DecidableEq, Repr

/-- What the user typed or clicked. -/
structure UserMessage where
  id : String
  text : String
  deriving DecidableEq, Repr

inductive Entry where
  | step (s : Step)
  | feedback (f : Feedback)
  | interceptor (i : Interceptor)
  | userMessage (m : UserMessage)
  deriving DecidableEq, Repr

namespace Entry

def id : Entry → String
  | step s => s.id
  | feedback f => f.id
  | interceptor i => i.id
  | userMessage m => m.id

def kind : Entry → EntryKind
  | step s => s.kind
  | feedback _ => .feedback
  | interceptor _ => .interceptor
  | userMessage _ => .userMessage

def step? : Entry → Option Step
  | step s => some s
  | _ => none

def interceptor? : Entry → Option Interceptor
  | interceptor i => some i
  | _ => none

/-- The components that the entry shows. -/
def components : Entry → List Component
  | step s => s.components
  | _ => []

/-- Whether the entry is the question with the given id. -/
def isInterceptor (id : String) (e : Entry) : Bool :=
  e.interceptor?.any fun i => i.id == id

theorem exists_of_isInterceptor {e : Entry} {id : String} (h : e.isInterceptor id = true) :
    ∃ i, e = .interceptor i ∧ i.id = id := by
  cases e with
  | interceptor i => exact ⟨i, rfl, by simpa [isInterceptor, interceptor?] using h⟩
  | _ => cases h

theorem isInterceptor_id (i : Interceptor) : (interceptor i).isInterceptor i.id = true := by
  simp [isInterceptor, interceptor?]

end Entry

namespace Interceptor

def toJson (i : Interceptor) : Json :=
  .object [("id", .string i.id), ("variableName", .string i.variableName),
    ("branches", .array (i.branches.map Branch.toJson)), ("stepId", .string i.stepId)]

def shape : Shape Interceptor :=
  ((((Shape.pure Interceptor.mk).field (.required "id" .string)).field
    (.required "variableName" .string)).field
    (.required "branches" (.list Branch.decode))).field
    (.required "stepId" .string)

def decode : Decoder Interceptor := shape.decoder "struct InterceptorEntry"

end Interceptor

namespace UserMessage

def toJson (m : UserMessage) : Json :=
  .object [("id", .string m.id), ("text", .string m.text)]

def shape : Shape UserMessage :=
  ((Shape.pure UserMessage.mk).field (.required "id" .string)).field (.required "text" .string)

def decode : Decoder UserMessage := shape.decoder "struct UserMessage"

end UserMessage

namespace Feedback

def toJson (f : Feedback) : Json :=
  .object [("id", .string f.id), ("text", .string f.text), ("at", .string f.time.text)]

def decodeTime : Decoder Timestamp := fun _ d =>
  match d with
  | .string t => do
    match Timestamp.parse (← Document.readToken t) with
    | .ok time => .ok time
    | .error p => .error (.mismatch (.refused p.message))
  | d => d.reject "an RFC 3339 formatted date and time string"

def shape : Shape Feedback :=
  (((Shape.pure Feedback.mk).field (.required "id" .string)).field
    (.required "text" .string)).field
    (.required "at" decodeTime)

def decode : Decoder Feedback := shape.decoder "struct FeedbackEntry"

end Feedback

namespace Entry

def toJson (e : Entry) : Json :=
  let (tag, data) := match e with
    | step s => ("step", s.toJson)
    | feedback f => ("feedback", f.toJson)
    | interceptor i => ("interceptor", i.toJson)
    | userMessage m => ("userMessage", m.toJson)
  .object [("entry", .string tag), ("data", data)]

def variants : List (String × Decoder Entry) :=
  [("step", fun h d => step <$> Step.decode h d),
    ("feedback", fun h d => feedback <$> Feedback.decode h d),
    ("interceptor", fun h d => interceptor <$> Interceptor.decode h d),
    ("userMessage", fun h d => userMessage <$> UserMessage.decode h d)]

def decode : Decoder Entry := PairedUnion.decoder ⟨"HistoryStep", "entry", "data", variants⟩

end Entry

/-- A maker of entries that no author wrote. Their ids are made of a supply of texts, which may be
any: what is asked of it is asked where it is needed. -/
structure Mint where
  supply : Nat → String
  made : Nat

namespace Mint

/-- The mint whose supply is a nonce with numbers. -/
def ofNonce (nonce : String) : Mint := ⟨fun k => s!"{nonce}-{k}", 0⟩

/-- The next id of a kind. -/
def fresh (m : Mint) (kind : String) : String :=
  let text := m.supply m.made
  s!"{kind}-{text}"

/-- The mint once its next id is given out. -/
def advance (m : Mint) : Mint := { m with made := m.made + 1 }

def userMessage (m : Mint) (text : String) : UserMessage := ⟨m.fresh "user", text⟩

def feedback (m : Mint) (text : String) (now : Timestamp) : Feedback :=
  ⟨m.fresh "feedback", text, now⟩

def interceptorId (m : Mint) : String := m.fresh "interceptor"

end Mint

end Dialogue
