import Dialogue.Decimal.Shortest
import Dialogue.Json.Basic
import Dialogue.Text.Quoted

/-! What can be wrong with a document: its text ends too soon, it is not JSON, or its shape is not
the one asked for. -/

namespace Dialogue

open Decimal (Binary64)

/-- A value met where another was expected, as far as it has been looked at. -/
inductive Found where
  | null
  | bool (value : Bool)
  | number (value : Number)
  | string (value : String)
  | array
  | object
  deriving DecidableEq, Repr

/-- How the shape of a document differs from the one asked for. -/
inductive Mismatch where
  | missingField (name : String)
  | duplicateField (name : String)
  | unknownVariant (found : String) (known : List String)
  | wrongType (found : Found) (expected : String)
  | wrongValue (found : Found) (expected : String)
  | wrongLength (length : Nat) (expected : String)
  | refused (reason : String)
  deriving DecidableEq, Repr

/-- Why a document cannot be decoded. -/
inductive Fault where
  | ended
  | malformed
  | mismatch (cause : Mismatch)
  deriving DecidableEq, Repr

namespace Found

def describe : Found → String
  | null => "null"
  | bool b => s!"boolean `{b}`"
  | number (.int i) => s!"integer `{i}`"
  | number (.real x) => s!"floating point `{x.toText}`"
  | string s => s!"string {Text.Quoted.encode s}"
  | array => "sequence"
  | object => "map"

end Found

namespace Mismatch

/-- A name between backquotes. -/
def ticked (name : String) : String := s!"`{name}`"

/-- The names that could have stood where another was found. -/
def alternatives : List String → String
  | [] => "there are no variants"
  | [a] => s!"expected {ticked a}"
  | [a, b] => s!"expected {ticked a} or {ticked b}"
  | names =>
    let listed := ", ".intercalate (names.map ticked)
    s!"expected one of {listed}"

def message : Mismatch → String
  | missingField name => s!"missing field {ticked name}"
  | duplicateField name => s!"duplicate field {ticked name}"
  | unknownVariant found known => s!"unknown variant {ticked found}, {alternatives known}"
  | wrongType found expected => s!"invalid type: {found.describe}, expected {expected}"
  | wrongValue found expected => s!"invalid value: {found.describe}, expected {expected}"
  | wrongLength length expected => s!"invalid length {length}, expected {expected}"
  | refused reason => reason

end Mismatch

end Dialogue
