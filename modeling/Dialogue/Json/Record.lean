import Dialogue.Json.Decode

/-! Records: values of known fields, read from an object by name or from an array by position. -/

namespace Dialogue

/-- The outcome of reading one part of an object: a fault comes with its place in the text. -/
abbrev Located (α : Type) := Except (Nat × Fault) α

namespace Located

variable {α β : Type}

/-- Both parts, or the fault that stands first. -/
def apply (f : Located (α → β)) (a : Located α) : Located β :=
  match f, a with
  | .ok f, .ok a => .ok (f a)
  | .ok _, .error e => .error e
  | .error e, .ok _ => .error e
  | .error e, .error e' => if e'.1 < e.1 then .error e' else .error e

/-- Reports what a part at `i` reports. -/
def place (i : Nat) (r : Except Fault α) : Located α :=
  r.mapError (i, ·)

/-- Forgets the place. -/
def result (r : Located α) : Except Fault α :=
  r.mapError (·.2)

end Located

/-- The members of an object under decoding. -/
abbrev Members := List (Token String × Document)

/-- A field of a record: its names, its decoder, and its value where an object lacks it or an array
of fields ends before it. -/
structure Field (α : Type) where
  name : String
  otherNames : List String
  decode : Decoder α
  absent : Option α
  short : Option α

namespace Field

variable {α : Type}

def required (name : String) (decode : Decoder α) : Field α := ⟨name, [], decode, none, none⟩

def defaulted (name : String) (decode : Decoder α) (default : α) : Field α :=
  ⟨name, [], decode, some default, some default⟩

def optional (name : String) (decode : Decoder α) : Field (Option α) :=
  ⟨name, [], decode.option, some none, some none⟩

/-- An optional field that an array of fields must still list. -/
def nullable (name : String) (decode : Decoder α) : Field (Option α) :=
  ⟨name, [], decode.option, some none, none⟩

def orNamed (f : Field α) (other : String) : Field α :=
  { f with otherNames := other :: f.otherNames }

def names (f : Field α) : List String := f.name :: f.otherNames

/-- Whether a member bears one of the field's names. -/
def isNamed (f : Field α) (member : Token String × Document) : Bool :=
  match member.1 with
  | .ok k => f.names.contains k
  | .error _ => false

/-- The field's value among members. A second member of the name is a fault where it stands, and
a missing one after all others. -/
def find (f : Field α) (h : Holding) (members : Members) : Located α :=
  match members.zipIdx.filter fun m => f.isNamed m.1 with
  | [] =>
    match f.absent with
    | some a => .ok a
    | none => .error (members.length + 1, .mismatch (.missingField f.name))
  | [(m, i)] => Located.place i (f.decode h m.2)
  | (m, i) :: (_, j) :: _ => do
    let _ ← Located.place i (f.decode h m.2)
    .error (j, .mismatch (.duplicateField f.name))

end Field

/-- A record of known fields, read from an object by name or from an array by position. Reading
from an array is told what to call the whole, and leaves the items behind the fields. -/
structure Shape (α : Type) where
  names : List String
  size : Nat
  ofMembers : Holding → Members → Located α
  ofItems : Holding → String → List Document → Option Damage → Except Fault (α × List Document)

namespace Shape

variable {α β : Type}

def pure (a : α) : Shape α where
  names := []
  size := 0
  ofMembers _ _ := .ok a
  ofItems _ _ items _ := .ok (a, items)

/-- One more field. -/
def field (s : Shape (α → β)) (f : Field α) : Shape β where
  names := s.names ++ f.names
  size := s.size + 1
  ofMembers h members := (s.ofMembers h members).apply (f.find h members)
  ofItems h whole items damage := do
    let (g, items) ← s.ofItems h whole items damage
    match items with
    | item :: rest => do
      let a ← f.decode h item
      .ok (g a, rest)
    | [] => do
      Document.readEnd damage
      match f.short with
      | some a => .ok (g a, [])
      | none => .error (.mismatch (.wrongLength s.size whole))

/-- Passes over the members that no field names; a name that cannot be read is a fault. -/
def passOver (names : List String) (members : Members) : Located Unit :=
  members.zipIdx.forM fun (member, i) =>
    match member.1 with
    | .error d => .error (i, d.onRead)
    | .ok k => if names.contains k then .ok () else Located.place i member.2.skip

/-- A count of elements, in words. -/
def elements (n : Nat) : String :=
  if n = 1 then "1 element" else s!"{n} elements"

/-- Reads the record from an object's members. -/
def fromMembers (s : Shape α) (h : Holding) (members : Members) (damage : Option Damage) :
    Except Fault α :=
  let rest := (passOver s.names members).bind fun _ =>
    Located.place members.length (Document.readEnd damage)
  Located.result ((Located.apply (rest.map fun _ => id)) (s.ofMembers h members))

/-- Refuses items that are left when `size` of `length` were due. -/
def endItems (h : Holding) (size length : Nat) (left : List Document) (damage : Option Damage) :
    Except Fault Unit :=
  if left.isEmpty then Document.readEnd damage
  else
    match h with
    | .text _ => .error .malformed
    | .aside =>
      let due := elements size
      .error (.mismatch (.wrongLength length s!"{due} in sequence"))
    | .value => .error (.mismatch (.wrongLength length "fewer elements in array"))

/-- Reads the record, called `what`, from the items of an array, which must not have more. -/
def fromItems (s : Shape α) (what : String) (h : Holding) (items : List Document)
    (damage : Option Damage) : Except Fault α := do
  let size := elements s.size
  let (a, rest) ← s.ofItems h s!"{what} with {size}" items damage
  endItems h s.size items.length rest damage
  .ok a

/-- The decoder of a record called `what`. -/
def decoder (s : Shape α) (what : String) : Decoder α := fun h d =>
  match d with
  | .object members damage => do
    let h ← h.enter
    s.fromMembers h members damage
  | .array items damage => do
    let h ← h.enter
    s.fromItems what h items damage
  | d => d.reject what

end Shape

end Dialogue
