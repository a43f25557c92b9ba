import Dialogue.Decimal.Binary64
import Dialogue.Keyed

/-! JSON values. Numbers are integers or binary64 values, and an object keeps its members as they
were written; the canonical form of a value names each member once, in order. -/

namespace Dialogue

open Decimal (Binary64)

attribute [local instance(2000)] instPowNat

/-- A number: an integer, or a value with a fraction or an exponent. -/
inductive Number where
  | int (value : Int)
  | real (value : Binary64)
  deriving DecidableEq, Repr

inductive Json where
  | null
  | bool (value : Bool)
  | number (value : Number)
  | string (value : String)
  | array (items : List Json)
  | object (members : List (String × Json))
  deriving Repr, Inhabited

namespace Json

mutual

/-- Equality of values, decided member by member. -/
def same : Json → Json → Bool
  | null, null => true
  | bool a, bool b => a == b
  | number a, number b => a == b
  | string a, string b => a == b
  | array a, array b => sameItems a b
  | object a, object b => sameMembers a b
  | _, _ => false

def sameItems : List Json → List Json → Bool
  | [], [] => true
  | a :: as, b :: bs => same a b && sameItems as bs
  | _, _ => false

def sameMembers : List (String × Json) → List (String × Json) → Bool
  | [], [] => true
  | (k, a) :: as, (l, b) :: bs => k == l && same a b && sameMembers as bs
  | _, _ => false

end

mutual

theorem same_iff : (a b : Json) → (same a b = true ↔ a = b)
  | null, b | bool _, b | number _, b | string _, b => by cases b <;> simp [same]
  | array as, b => by cases b <;> simp [same, sameItems_iff as]
  | object as, b => by cases b <;> simp [same, sameMembers_iff as]

theorem sameItems_iff : (as bs : List Json) → (sameItems as bs = true ↔ as = bs)
  | [], bs => by cases bs <;> simp [sameItems]
  | a :: as, bs => by cases bs <;> simp [sameItems, same_iff a, sameItems_iff as]

theorem sameMembers_iff : (as bs : List (String × Json)) → (sameMembers as bs = true ↔ as = bs)
  | [], bs => by cases bs <;> simp [sameMembers]
  | (k, a) :: as, bs => by
    cases bs <;> simp [sameMembers, same_iff a, sameMembers_iff as, Prod.ext_iff]

end

instance : DecidableEq Json := fun a b => decidable_of_iff _ (same_iff a b)

/-- The last of an object's values for a key. -/
def get? (k : String) : Json → Option Json
  | object members => (members.reverse.find? (·.1 == k)).map (·.2)
  | _ => none

/-- Takes the value for a key out of an object; where there is none, null is what is taken. -/
def remove (k : String) : Json → Json × Json
  | object members =>
    (((object members).get? k).getD null, object (members.filter fun m => m.1 != k))
  | j => (null, j)

/-- Text where a value is a string. -/
def text? : Json → Option String
  | string s => some s
  | _ => none

def ofNat (n : Nat) : Json := number (.int n)

def ofOption {α : Type} (f : α → Json) : Option α → Json
  | none => null
  | some a => f a

def strings (l : List String) : Json := array (l.map string)

end Json

/-- A finite value as a number; infinity and NaN have none. -/
def Number.ofReal? (x : Binary64) : Option Number :=
  if x.magnitude < Binary64.infinite then some (.real x) else none

/-- A number as a document can carry it: integers of 64 bits, signed or not, stay exact, and
others become binary64. -/
def Number.canonical : Number → Option Number
  | .int i =>
    if -(2 ^ (63 : Nat)) ≤ i ∧ i < 2 ^ (64 : Nat) then some (.int i) else ofReal? (.ofInt i)
  | .real x => ofReal? x

namespace Json

mutual

/-- The value with every object's keys unique and in order, the last of equal keys being kept. -/
def canonical : Json → Json
  | null => null
  | bool b => bool b
  | number n => (n.canonical.map number).getD null
  | string s => string s
  | array items => array (canonicalItems items)
  | object members => object (canonicalMembers [] members)

def canonicalItems : List Json → List Json
  | [] => []
  | item :: rest => canonical item :: canonicalItems rest

/-- The members put in their places among those already `placed`. -/
def canonicalMembers (placed : List (String × Json)) : List (String × Json) → List (String × Json)
  | [] => placed
  | (k, value) :: rest => canonicalMembers (Keyed.put k (canonical value) placed) rest

end

end Json

theorem Number.canonical_of_canonical {n m : Number} (h : n.canonical = some m) :
    m.canonical = some m := by
  have ofReal : ∀ x, ofReal? x = some m → m.canonical = some m := fun x h => by
    simp only [ofReal?] at h
    split at h
    · next hx => cases h; simp [canonical, ofReal?, hx]
    · cases h
  cases n with
  | int i =>
    simp only [canonical] at h
    split at h
    · next hi => cases h; exact if_pos hi
    · exact ofReal _ h
  | real x => exact ofReal x h

namespace Json

theorem pairwise_canonicalMembers {placed members : List (String × Json)}
    (h : placed.Pairwise fun a b => a.1 < b.1) :
    (canonicalMembers placed members).Pairwise fun a b => a.1 < b.1 := by
  induction members generalizing placed with
  | nil => exact h
  | cons e rest ih => exact ih (Keyed.pairwise_put _ _ h)

/-- Members in order with canonical values are left as they are. -/
theorem canonicalMembers_of_pairwise {placed members : List (String × Json)}
    (h : (placed ++ members).Pairwise fun a b => a.1 < b.1)
    (hfix : ∀ e ∈ members, e.2.canonical = e.2) :
    canonicalMembers placed members = placed ++ members := by
  induction members generalizing placed with
  | nil => simp [canonicalMembers]
  | cons e rest ih =>
    have hlt : ∀ x ∈ placed, x.1 < e.1 := fun x hx =>
      (List.pairwise_append.1 h).2.2 x hx e (List.mem_cons_self ..)
    have hput : Keyed.put e.1 e.2.canonical placed = placed ++ [e] := by
      rw [Keyed.put_of_lt hlt, hfix e (List.mem_cons_self ..)]
    rw [canonicalMembers, hput, ih (by simpa using h)
      fun x hx => hfix x (List.mem_cons_of_mem _ hx)]
    simp

mutual

theorem canonical_canonical : (j : Json) → j.canonical.canonical = j.canonical
  | null | bool _ | string _ => rfl
  | number n => by
    simp only [canonical]
    cases h : n.canonical with
    | none => rfl
    | some m => simp [canonical, Number.canonical_of_canonical h]
  | array items => by simp only [canonical, canonicalItems_canonical items]
  | object members => by
    simp only [canonical]
    rw [canonicalMembers_of_pairwise
      (by simpa using @pairwise_canonicalMembers [] members .nil)
      (forall_canonicalMembers [] members (by simp))]
    rfl

theorem canonicalItems_canonical :
    (items : List Json) → canonicalItems (canonicalItems items) = canonicalItems items
  | [] => rfl
  | item :: rest => by
    simp only [canonicalItems, canonical_canonical item, canonicalItems_canonical rest]

theorem forall_canonicalMembers (placed : List (String × Json)) :
    (members : List (String × Json)) → (∀ e ∈ placed, e.2.canonical = e.2) →
      ∀ e ∈ canonicalMembers placed members, e.2.canonical = e.2
  | [], h => h
  | (_, value) :: rest, h =>
    forall_canonicalMembers _ rest (Keyed.forall_mem_put (canonical_canonical value) h)

end

/-- A value in canonical form. -/
structure Canonical where
  value : Json
  canonical_value : value.canonical = value
  deriving DecidableEq, Repr

/-- The canonical form of a value, as such. -/
def toCanonical (j : Json) : Canonical := ⟨j.canonical, canonical_canonical j⟩

instance : Inhabited Canonical := ⟨null, rfl⟩

end Json

end Dialogue
