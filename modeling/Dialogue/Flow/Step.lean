import Dialogue.Json.Basic

/-! The parts of a conversation flow as it is authored: steps, the components of a turn, the
branches of a condition, and the connections between steps. -/

namespace Dialogue

abbrev StepId := String

abbrev ComponentId := String

abbrev BranchId := String

/-- The kinds of entries that a conversation's history can hold. -/
inductive EntryKind where
  | start
  | turn
  | userTurn
  | condition
  | note
  | feedback
  | interceptor
  | userMessage
  deriving DecidableEq, Repr

namespace EntryKind

def name : EntryKind → String
  | start => "start"
  | turn => "turn"
  | userTurn => "user-turn"
  | condition => "condition"
  | note => "note"
  | feedback => "feedback"
  | interceptor => "interceptor"
  | userMessage => "user-message"

/-- Whether such an entry is something that the user said. -/
def isUserAuthored : EntryKind → Bool
  | userTurn | userMessage => true
  | _ => false

end EntryKind

/-- What a bot turn shows. Messages and the bodies of infos appear character by character. -/
inductive Component where
  | message (id : ComponentId) (text : String)
  | info (id : ComponentId) (title body : String)
  | prompt (id : ComponentId) (label : String) (handle : Option String)
  | card (id : ComponentId) (title : String) (content : Json.Canonical)
  deriving DecidableEq, Repr

namespace Component

def id : Component → ComponentId
  | message id _ | info id _ _ | prompt id _ _ | card id _ _ => id

def isPrompt : Component → Bool
  | prompt .. => true
  | _ => false

/-- The text that is revealed character by character, where there is one. -/
def streamedText? : Component → Option String
  | message _ text => some text
  | info _ _ body => some body
  | prompt .. | card .. => none

/-- The characters that appear one by one. -/
def characters (c : Component) : List Char := (c.streamedText?.map String.toList).getD []

/-- The component with its streamed text replaced; others stay as they are. -/
def withStreamedText (text : String) : Component → Component
  | message id _ => message id text
  | info id title _ => info id title text
  | c => c

/-- Whether the component has a text to replace. -/
def streams (c : Component) : Bool := c.streamedText?.isSome

@[simp] theorem id_withStreamedText (c : Component) (text : String) :
    (c.withStreamedText text).id = c.id := by
  cases c <;> rfl

@[simp] theorem isPrompt_withStreamedText (c : Component) (text : String) :
    (c.withStreamedText text).isPrompt = c.isPrompt := by
  cases c <;> rfl

theorem streamedText?_withStreamedText (c : Component) (text : String) :
    (c.withStreamedText text).streamedText? = c.streamedText?.map fun _ => text := by
  cases c <;> rfl

end Component

/-- The variable and the value that a branch asks for. -/
structure Guard where
  name : String
  value : String
  deriving DecidableEq, Repr

/-- One way out of a condition. Its id is the handle of the connection that leaves by it; its label
is what typed input is compared with where it has no guard. -/
structure Branch where
  id : BranchId
  isDefault : Bool
  label : Option String
  guard : Option Guard
  deriving DecidableEq, Repr

namespace Branch

/-- A branch that nothing chooses yet. -/
def plain (id : BranchId) : Branch := ⟨id, false, none, none⟩

/-- The branch taken when no other applies. -/
def fallback (id : BranchId) : Branch := ⟨id, true, none, none⟩

def guardedBy (b : Branch) (name value : String) : Branch :=
  { b with guard := some ⟨name, value⟩ }

def labeled (b : Branch) (label : String) : Branch :=
  { b with label := some label }

/-- The variable that the branch depends on. -/
def guardName? (b : Branch) : Option String := b.guard.map Guard.name

end Branch

/-- A node of a flow. -/
inductive Step where
  | start (id : StepId)
  | turn (id : StepId) (components : List Component)
  | userTurn (id : StepId) (label : String) (trigger : Option String)
  | condition (id : StepId) (branches : List Branch)
  | note (id : StepId) (text : String)
  deriving DecidableEq, Repr

namespace Step

def id : Step → StepId
  | start id | turn id _ | userTurn id _ _ | condition id _ | note id _ => id

def kind : Step → EntryKind
  | start _ => .start
  | turn .. => .turn
  | userTurn .. => .userTurn
  | condition .. => .condition
  | note .. => .note

def isStart : Step → Bool
  | start _ => true
  | _ => false

def isUserTurn : Step → Bool
  | userTurn .. => true
  | _ => false

def isNote : Step → Bool
  | note .. => true
  | _ => false

/-- The components of a turn; other steps have none. -/
def components : Step → List Component
  | turn _ components => components
  | _ => []

/-- The branches of a condition; other steps have none. -/
def branches : Step → List Branch
  | condition _ branches => branches
  | _ => []

/-- Gives a user turn its trigger phrase. -/
def withTrigger (phrase : String) : Step → Step
  | userTurn id label _ => userTurn id label (some phrase)
  | s => s

/-- A turn with other components; other steps stay as they are. -/
def withComponents (components : List Component) : Step → Step
  | turn id _ => turn id components
  | s => s

end Step

/-- A directed edge between two steps, which may leave its source by a handle. -/
structure Connection where
  source : StepId
  target : StepId
  handle : Option String
  deriving DecidableEq, Repr

namespace Connection

def between (source target : StepId) : Connection := ⟨source, target, none⟩

def withHandle (c : Connection) (handle : String) : Connection :=
  { c with handle := some handle }

end Connection

/-- A flow as the author writes it down: its steps and connections, in order. -/
structure Flow where
  steps : List Step
  connections : List Connection
  deriving DecidableEq, Repr, Inhabited

namespace Flow

def empty : Flow := ⟨[], []⟩

def addStep (f : Flow) (s : Step) : Flow := { f with steps := f.steps ++ [s] }

def addSteps (f : Flow) (ss : List Step) : Flow := { f with steps := f.steps ++ ss }

def addConnection (f : Flow) (c : Connection) : Flow :=
  { f with connections := f.connections ++ [c] }

def connect (f : Flow) (source target : StepId) : Flow :=
  f.addConnection (.between source target)

/-- Connects two steps through a branch or a prompt of the first. -/
def connectBy (f : Flow) (source : StepId) (handle : String) (target : StepId) : Flow :=
  f.addConnection ((Connection.between source target).withHandle handle)

end Flow

end Dialogue
