import Dialogue.Flow.Codec

/-! Facts bound during a conversation. -/

namespace Dialogue

/-- A name, its value, and the kind of value it is. -/
structure Variable where
  name : String
  value : String
  kind : String
  deriving DecidableEq, Repr

namespace Variable

/-- A variable of the kind that users type or choose. -/
def text (name value : String) : Variable := ⟨name, value, "text"⟩

def toJson (v : Variable) : Json :=
  .object [("name", .string v.name), ("value", .string v.value), ("type", .string v.kind)]

def shape : Shape Variable :=
  (((Shape.pure Variable.mk).field (.required "name" .string)).field
    (.required "value" .string)).field
    (.required "type" .string)

def decode : Decoder Variable := shape.decoder "struct RuntimeVariable"

/-- The variable at its place among others in order of name, before those of the same name. -/
def place (v : Variable) : List Variable → List Variable
  | [] => [v]
  | w :: rest => if w.name < v.name then w :: v.place rest else v :: w :: rest

end Variable

/-- A store of variables by name. The latest write counts. -/
structure Variables where
  bindings : Keyed Variable
  deriving DecidableEq, Repr

namespace Variables

def empty : Variables := ⟨.empty⟩

instance : Inhabited Variables := ⟨empty⟩

def set (vs : Variables) (v : Variable) : Variables := ⟨vs.bindings.insert v.name v⟩

def get? (vs : Variables) (name : String) : Option Variable := vs.bindings.get? name

def value? (vs : Variables) (name : String) : Option String := (vs.get? name).map (·.value)

def contains (vs : Variables) (name : String) : Bool := vs.bindings.contains name

def size (vs : Variables) : Nat := vs.bindings.size

def ofList (l : List Variable) : Variables := l.foldl set empty

/-- The variables in order of name. -/
def sorted (vs : Variables) : List Variable :=
  (vs.bindings.entries.map (·.2)).foldr Variable.place []

theorem get?_set (vs : Variables) (v : Variable) (name : String) :
    (vs.set v).get? name = if v.name = name then some v else vs.get? name :=
  Keyed.get?_insert _ _ _ _

theorem contains_eq (vs : Variables) (name : String) :
    vs.contains name = (vs.get? name).isSome := rfl

def toJson (vs : Variables) : Json :=
  .object [("entries", .object (vs.bindings.entries.map fun e => (e.1, e.2.toJson)))]

def shape : Shape Variables :=
  (Shape.pure Variables.mk).field (.required "entries" (.keyed Variable.decode))

def decode : Decoder Variables := shape.decoder "struct Variables"

end Variables

end Dialogue
