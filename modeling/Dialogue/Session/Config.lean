import Dialogue.Decimal.Literal
import Dialogue.Session.Timing
import Dialogue.Traversal

/-! What a session can be told about its behaviour, in code or by its environment. -/

namespace Dialogue

attribute [local instance(2000)] instPowNat

structure Config where
  sessionId : String
  /-- Whether turns are delivered with pauses. -/
  simulates : Bool := true
  timing : Timing := .standard
  limits : TraversalLimits := .standard
  intent : IntentConfig := .standard
  /-- How many events a subscriber may be behind. -/
  eventBuffer : Nat := 1024
  deriving DecidableEq, Repr

namespace Config

def standard (sessionId : String) : Config := { sessionId }

/-- Delivers everything at once. -/
def instant (sessionId : String) : Config := { sessionId, simulates := false }

/-- A buffer for so many events; for none means as many as usual. -/
def withEventBuffer (c : Config) (size : Nat) : Config :=
  { c with eventBuffer := if size = 0 then (standard c.sessionId).eventBuffer else size }

def withMaxHops (c : Config) (hops : Nat) : Config :=
  { c with limits := ⟨hops⟩ }

/-- A truth value as its word. -/
def truth? (s : String) : Option Bool :=
  if s = "true" then some true else if s = "false" then some false else none

/-- A variable's value, as `read` understands it once blanks around it are dropped; what cannot be
read counts as not there. -/
def setting {α : Type} (env : String → Option String) (name : String)
    (read : String → Option α) : Option α :=
  (env name).bind fun raw => read (Text.trim raw)

/-- The usual behaviour, but for what the environment says. -/
def ofEnvironment (sessionId : String) (env : String → Option String) : Config :=
  let c := standard sessionId
  let word := Decimal.natural? (2 ^ (64 : Nat))
  let c := { c with
    simulates := (setting env "CONVOFLOW_SIMULATE_THINKING" truth?).getD c.simulates }
  let c := ((setting env "CONVOFLOW_MAX_HOPS" word).map c.withMaxHops).getD c
  let c := { c with
    intent.threshold :=
      (setting env "CONVOFLOW_INTENT_THRESHOLD" Decimal.Binary64.ofText?).getD
        c.intent.threshold
    timing := ((setting env "CONVOFLOW_CHAR_DELAY_MS" word).map
      c.timing.withCharacter).getD c.timing }
  ((setting env "CONVOFLOW_EVENT_BUFFER" word).map c.withEventBuffer).getD c

end Config

end Dialogue
