import Dialogue.Json.Decode

/-! Delivery runs. A conversation numbers its runs, and only the one with the latest number may
still change anything. -/

namespace Dialogue

/-- A delivery run, by its number. -/
structure Run where
  number : Nat
  deriving DecidableEq, Repr, Inhabited

/-- A run that a later one has taken the place of. -/
structure Superseded where
  stale : Run
  live : Run
  deriving DecidableEq, Repr

namespace Run

def zero : Run := ⟨0⟩

/-- The run that takes this one's place. -/
def next (r : Run) : Run := ⟨r.number + 1⟩

def describe (r : Run) : String :=
  let number := r.number
  s!"run#{number}"

/-- Whether the run may go on while `live` is the latest. -/
def check (r live : Run) : Except Superseded Unit :=
  if r = live then .ok () else .error ⟨r, live⟩

/-- A wait, during which the latest run may change. It is refused at once to a run that is
superseded already. -/
def wait (r before after : Run) : Except Superseded Unit := do
  r.check before
  r.check after

theorem check_eq_ok_iff {r live : Run} : r.check live = .ok () ↔ r = live := by
  simp [check]

def toJson (r : Run) : Json := .ofNat r.number

def decode : Decoder Run := fun h d => Run.mk <$> Decoder.nat "u64" h d

end Run

namespace Superseded

def message (s : Superseded) : String :=
  let stale := s.stale.describe
  let live := s.live.describe
  s!"{stale} was superseded by {live}"

end Superseded

end Dialogue
