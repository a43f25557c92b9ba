import Dialogue.Json.Fault

/-! A document as it was written, down to the places where its text cannot be read. Faults stay
where they stand, so that a reader meets them in the order of the text and never those that lie
behind what it refuses. -/

namespace Dialogue

/-- Why a token cannot be read, and why it cannot even be passed over, where it cannot. -/
structure Damage where
  onRead : Fault
  onSkip : Option Fault
  deriving DecidableEq, Repr

namespace Damage

/-- Text that nothing can pass. -/
def blocking (f : Fault) : Damage := ⟨f, some f⟩

/-- A token whose extent is clear, but not its value. -/
def valueOnly : Damage := ⟨.malformed, none⟩

/-- What a reader that passes over the token reports. -/
def skipped (d : Damage) : Except Fault Unit :=
  match d.onSkip with
  | none => .ok ()
  | some f => .error f

end Damage

/-- A token's value, if it can be read. -/
abbrev Token (α : Type) := Except Damage α

/-- A document. Containers tell where their text breaks off. What stands where the name of a member
was due is a name that cannot be read, and its value is missing. -/
inductive Document where
  | missing
  | broken (damage : Damage)
  | null
  | bool (value : Bool)
  | number (value : Token Number)
  | string (value : Token String)
  | array (items : List Document) (damage : Option Damage)
  | object (members : List (Token String × Document)) (damage : Option Damage)
  deriving Inhabited

namespace Document

/-- A token's value where it has one. -/
def readToken {α : Type} (t : Token α) : Except Fault α :=
  t.mapError Damage.onRead

def skipToken {α : Type} : Token α → Except Fault Unit
  | .ok _ => .ok ()
  | .error d => d.skipped

/-- The end of a container that breaks off. -/
def skipEnd : Option Damage → Except Fault Unit
  | none => .ok ()
  | some d => d.skipped

def readEnd : Option Damage → Except Fault Unit
  | none => .ok ()
  | some d => .error d.onRead

mutual

/-- Passes over a document without regard to values, ranges and nesting. -/
def skip : Document → Except Fault Unit
  | missing => .error .ended
  | broken d => d.skipped
  | null | bool _ => .ok ()
  | number t => skipToken t
  | string t => skipToken t
  | array items damage => do skipItems items; skipEnd damage
  | object members damage => do skipMembers members; skipEnd damage

def skipItems : List Document → Except Fault Unit
  | [] => .ok ()
  | item :: rest => do skip item; skipItems rest

def skipMembers : List (Token String × Document) → Except Fault Unit
  | [] => .ok ()
  | (k, value) :: rest => do skipToken k; skip value; skipMembers rest

end

mutual

/-- The document of a value, which has no faults. -/
def ofJson : Json → Document
  | .null => null
  | .bool b => bool b
  | .number n => number (.ok n)
  | .string s => string (.ok s)
  | .array items => array (ofItems items) none
  | .object members => object (ofMembers members) none

def ofItems : List Json → List Document
  | [] => []
  | item :: rest => ofJson item :: ofItems rest

def ofMembers : List (String × Json) → List (Token String × Document)
  | [] => []
  | (k, value) :: rest => (.ok k, ofJson value) :: ofMembers rest

end

/-- What the document is, as far as its first token tells. -/
def found : Document → Except Fault Found
  | missing => .error .ended
  | broken d => .error d.onRead
  | null => .ok .null
  | bool b => .ok (.bool b)
  | number t => .number <$> readToken t
  | string t => .string <$> readToken t
  | array _ _ => .ok .array
  | object _ _ => .ok .object

/-- Whether nothing can follow the document. -/
def isBlocked : Document → Bool
  | missing => true
  | broken d => d.onSkip.isSome
  | number (.error d) | string (.error d) => d.onSkip.isSome
  | array _ damage | object _ damage => damage.isSome
  | _ => false

end Document

end Dialogue
