import Dialogue.Conversation.Entry

/-! Texts that were cut short. A cut remembers the component, which of its copies in history was
meant, and the text that was left of it, so that it can be made again on a later history. -/

namespace Dialogue

attribute [local instance(2000)] Zero.ofOfNat0

structure Cut where
  componentId : ComponentId
  /-- How many copies of the component stand before the one meant. -/
  copy : Nat
  text : String
  deriving DecidableEq, Repr

namespace Cut

/-- Replaces the text of the copy that has `n` others before it. -/
def inComponents (id : ComponentId) (text : String) : Nat → List Component → List Component
  | _, [] => []
  | n, c :: rest =>
    if c.id = id then
      match n with
      | 0 => c.withStreamedText text :: rest
      | n + 1 => c :: inComponents id text n rest
    else c :: inComponents id text n rest

end Cut

namespace Entry

/-- How often the entry shows a component. -/
def copies (id : ComponentId) (e : Entry) : Nat :=
  e.components.countP fun c => c.id == id

/-- The entry with one copy of a component cut. -/
def cut (id : ComponentId) (text : String) (n : Nat) : Entry → Entry
  | step s => step (s.withComponents (Cut.inComponents id text n s.components))
  | e => e

end Entry

namespace Cut

def inEntries (id : ComponentId) (text : String) : Nat → List Entry → List Entry
  | _, [] => []
  | n, e :: rest =>
    if n < e.copies id then e.cut id text n :: rest
    else e :: inEntries id text (n - e.copies id) rest

/-- Makes the cut in a history. A history without the copy is left as it is. -/
def apply (c : Cut) (history : List Entry) : List Entry :=
  inEntries c.componentId c.text c.copy history

/-- The cut that leaves `text` of the newest copy in a history. -/
def ofNewest? (history : List Entry) (id : ComponentId) (text : String) : Option Cut :=
  match (history.map (Entry.copies id)).sum with
  | 0 => none
  | n + 1 => some ⟨id, n, text⟩

theorem map_id_inComponents (id : ComponentId) (text : String) (n : Nat) (cs : List Component) :
    (inComponents id text n cs).map Component.id = cs.map Component.id := by
  fun_induction inComponents id text n cs <;> simp_all

end Cut

namespace Entry

@[simp] theorem id_cut (id : ComponentId) (text : String) (n : Nat) (e : Entry) :
    (e.cut id text n).id = e.id := by
  cases e with
  | step s => cases s <;> rfl
  | _ => rfl

@[simp] theorem kind_cut (id : ComponentId) (text : String) (n : Nat) (e : Entry) :
    (e.cut id text n).kind = e.kind := by
  cases e with
  | step s => cases s <;> rfl
  | _ => rfl

end Entry

end Dialogue
