import Dialogue.Json.Reader

/-! Decoding: values of known shape out of documents. Faults are reported in the order in which the
document meets them, and what is missing after all that is there. -/

namespace Dialogue

/-- How a document is held while it is decoded: as text, in which so many more containers may be
opened; put aside, while the tag of the object around it was looked for; or as a value. -/
inductive Holding where
  | text (depth : Nat)
  | aside
  | value
  deriving DecidableEq, Repr

namespace Holding

/-- Into a container. Text may nest 127 of them. -/
def enter : Holding → Except Fault Holding
  | text (depth + 2) => .ok (text (depth + 1))
  | text _ => .error .malformed
  | h => .ok h

/-- How a text is held at its start. -/
def start : Holding := text 128

end Holding

abbrev Decoder (α : Type) := Holding → Document → Except Fault α

namespace Document

/-- Refuses a document of another kind than expected, or for its own fault. -/
def reject {α : Type} (expected : String) (d : Document) : Except Fault α := do
  .error (.mismatch (.wrongType (← d.found) expected))

mutual

/-- The document as a value. -/
def toJson (h : Holding) : Document → Except Fault Json
  | missing => .error .ended
  | broken d => .error d.onRead
  | null => .ok .null
  | bool b => .ok (.bool b)
  | number t => .number <$> readToken t
  | string t => .string <$> readToken t
  | array items damage => do
    let h ← h.enter
    let items ← toItems h items
    readEnd damage
    .ok (.array items)
  | object members damage => do
    let h ← h.enter
    let members ← toMembers h members
    readEnd damage
    .ok (.object members)

def toItems (h : Holding) : List Document → Except Fault (List Json)
  | [] => .ok []
  | item :: rest => do
    let item ← toJson h item
    let rest ← toItems h rest
    .ok (item :: rest)

def toMembers (h : Holding) :
    List (Token String × Document) → Except Fault (List (String × Json))
  | [] => .ok []
  | (k, value) :: rest => do
    let k ← readToken k
    let value ← toJson h value
    let rest ← toMembers h rest
    .ok ((k, value) :: rest)

end

end Document

namespace Decoder

variable {α β : Type}

/-- Decodes a text, behind which only blanks may stand. -/
def ofText (decode : Decoder α) (s : String) : Except Fault α := do
  let source := Document.ofText s
  let a ← decode .start source.root
  if source.trailing then .error .malformed else .ok a

/-- Decodes a value. -/
def ofJson (decode : Decoder α) (j : Json) : Except Fault α :=
  decode .value (.ofJson j)

def json : Decoder Json := fun h d => d.toJson h

def string : Decoder String := fun _ d =>
  match d with
  | .string t => Document.readToken t
  | d => d.reject "a string"

def bool : Decoder Bool := fun _ d =>
  match d with
  | .bool b => .ok b
  | d => d.reject "a boolean"

/-- A natural number, called `expected` where another value stands. -/
def nat (expected : String) : Decoder Nat := fun _ d =>
  match d with
  | .number (.ok (.int i)) =>
    if 0 ≤ i then .ok i.toNat else .error (.mismatch (.wrongValue (.number (.int i)) expected))
  | d => d.reject expected

def real : Decoder Decimal.Binary64 := fun _ d =>
  match d with
  | .number (.ok (.int i)) => .ok (.ofInt i)
  | .number (.ok (.real x)) => .ok x
  | d => d.reject "f64"

def list (decode : Decoder α) : Decoder (List α) := fun h d =>
  match d with
  | .array items damage => do
    let h ← h.enter
    let as ← items.mapM (decode h)
    Document.readEnd damage
    .ok as
  | d => d.reject "a sequence"

/-- Null, or a value. -/
def option (decode : Decoder α) : Decoder (Option α) := fun h d =>
  match d with
  | .null => .ok none
  | d => some <$> decode h d

/-- A map from strings. Of equal keys the last counts. -/
def keyed (decode : Decoder α) : Decoder (Keyed α) := fun h d =>
  match d with
  | .object members damage => do
    let h ← h.enter
    let entries ← members.mapM fun (k, value) => do
      let k ← Document.readToken k
      let a ← decode h value
      .ok (k, a)
    Document.readEnd damage
    .ok (.ofList entries)
  | d => d.reject "a map"

/-- The value that goes by a name. -/
def pick (names : List (String × α)) (s : String) : Except Fault α :=
  match names.find? (·.1 == s) with
  | some e => .ok e.2
  | none => .error (.mismatch (.unknownVariant s (names.map (·.1))))

/-- The value of a name that stands for itself. Put aside, an empty object will do. -/
def unit : Decoder Unit := fun h d =>
  match h, d with
  | _, .null => .ok ()
  | .aside, .object [] _ => .ok ()
  | _, d => d.reject "unit"

/-- One of some names, which only a string can tell. -/
def name (names : List (String × α)) : Decoder α := fun _ d =>
  match d with
  | .string t => do pick names (← Document.readToken t)
  | d => d.reject "variant identifier"

/-- One of some names: a string, or an object that has the name as its only key. -/
def word (names : List (String × α)) : Decoder α := fun h d =>
  match h, d with
  | _, .string t => do pick names (← Document.readToken t)
  | .text depth, .object members damage => do
    let h ← (Holding.text depth).enter
    match members with
    | [] => do
      Document.readEnd damage
      .error .malformed
    | (k, value) :: rest => do
      let a ← pick names (← Document.readToken k)
      unit h value
      if rest.isEmpty then
        Document.readEnd damage
        .ok a
      else .error .malformed
  | .text _, .missing => .error .ended
  | .text _, _ => .error .malformed
  | h, .object [(k, value)] _ => do
    let a ← pick names (← Document.readToken k)
    unit h value
    .ok a
  | _, .object _ _ => .error (.mismatch (.wrongValue .object "map with a single key"))
  | _, d => d.reject "string or map"

end Decoder

end Dialogue
