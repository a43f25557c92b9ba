import Dialogue.Text.Lowercase
import Dialogue.Variables

/-! Which branch of a condition applies. A variable that a branch depends on and that is not bound
is asked for; no branch is guessed in its place. -/

namespace Dialogue

/-- What a condition decides. -/
inductive Decision where
  | branch (id : BranchId)
  | missing (name : String)
  | noBranches
  deriving DecidableEq, Repr

namespace Decision

def branch? : Decision → Option BranchId
  | branch id => some id
  | _ => none

def describe : Decision → String
  | branch id => id
  | missing name => s!"missing:{name}"
  | noBranches => "none"

end Decision

namespace Condition

/-- The first variable, among those that branches other than defaults depend on, that is not
bound. -/
def missing? (branches : List Branch) (vs : Variables) : Option String :=
  ((branches.filter fun b => !b.isDefault).filterMap Branch.guardName?).find? fun name =>
    !vs.contains name

/-- The first default branch, or else the first branch. -/
def fallback? (branches : List Branch) : Option Branch :=
  (branches.find? Branch.isDefault).or branches.head?

/-- What a branch wants to see: the value of its guard, or its label. -/
def expected? (b : Branch) : Option String :=
  match b.guard with
  | some g => some (Text.normalize g.value)
  | none => b.label.map Text.normalize

/-- What a branch sees: its variable where that is bound, and otherwise the input. -/
def actual? (vs : Variables) (input : Option String) (b : Branch) : Option String :=
  match b.guard with
  | some g => ((vs.value? g.name).map Text.normalize).or input
  | none => input

/-- Whether a branch sees what it wants to see, which must not be blank. -/
def applies (vs : Variables) (input : Option String) (b : Branch) : Bool :=
  match expected? b, actual? vs input b with
  | some expected, some actual => expected ≠ "" ∧ expected = actual
  | _, _ => false

/-- Decides between branches: an unbound variable first, then the first branch that applies, then
the fallback. Values are compared trimmed and in lower case. -/
def resolve (branches : List Branch) (vs : Variables) (input : Option String) : Decision :=
  if branches.isEmpty then .noBranches
  else
    match missing? branches vs with
    | some name => .missing name
    | none =>
      match (branches.find? (applies vs (input.map Text.normalize))).or (fallback? branches) with
      | some b => .branch b.id
      | none => .noBranches

end Condition

end Dialogue
