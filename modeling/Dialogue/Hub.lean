import Dialogue.Event.Basic

/-! A hub, which passes events to its subscribers. Each reads at its own pace, and a hub keeps a
limited number of events: one who reads too slowly is told how many were missed. -/

namespace Dialogue

attribute [local instance(2000)] instPowNat

/-- The least power of two that is not below `n`. -/
def powerOfTwoFrom (n : Nat) : Nat :=
  if n ≤ 1 then 1 else 2 ^ (Nat.log2 (n - 1) + 1)

theorem powerOfTwoFrom_pos (n : Nat) : 0 < powerOfTwoFrom n := by
  unfold powerOfTwoFrom
  split
  · decide
  · exact Nat.pow_pos (by decide)

/-- A hub: the events published so far, and for each subscriber how many of them are behind it. -/
structure Hub where
  capacity : Nat
  published : Array Event
  positions : List (Option Nat)
  /-- How many events subscribers have missed, as far as they know. -/
  dropped : Nat
  deriving DecidableEq, Repr

/-- What a subscriber finds. -/
inductive Receipt where
  | event (e : Event)
  | lagged (missed : Nat)
  | empty
  deriving DecidableEq, Repr

namespace Hub

/-- A hub for at least one event. -/
def ofCapacity (capacity : Nat) : Hub := ⟨max capacity 1, #[], [], 0⟩

/-- How many events are kept. -/
def retention (h : Hub) : Nat := powerOfTwoFrom h.capacity

/-- How many events are no longer kept. -/
def forgotten (h : Hub) : Nat := h.published.size - h.retention

def position? (h : Hub) (i : Nat) : Option Nat := (h.positions[i]?).join

def subscriberCount (h : Hub) : Nat := h.positions.countP Option.isSome

/-- A new subscriber, who finds the events published from now on. -/
def subscribe (h : Hub) : Hub :=
  { h with positions := h.positions ++ [some h.published.size] }

def unsubscribe (h : Hub) (i : Nat) : Hub :=
  { h with positions := h.positions.set i none }

/-- What publishing says where nobody listens. -/
def closedMessage : String := "no subscribers listening"

/-- Publishes an event, unless nobody listens. -/
def publish? (h : Hub) (e : Event) : Option Hub :=
  if h.subscriberCount = 0 then none else some { h with published := h.published.push e }

/-- Publishes events to whoever listens. -/
def publishAll (h : Hub) (es : List Event) : Hub :=
  es.foldl (fun h e => (h.publish? e).getD h) h

/-- The hub with a subscriber moved on. -/
def moveTo (h : Hub) (i n : Nat) : Hub :=
  { h with positions := h.positions.set i (some n) }

/-- What a subscriber finds next. One who has missed events learns how many, and goes on with the
oldest that is kept. -/
def receive (h : Hub) (i : Nat) : Receipt × Hub :=
  match h.position? i with
  | none => (.empty, h)
  | some n =>
    if n < h.forgotten then
      let missed := h.forgotten - n
      (.lagged missed, { h.moveTo i h.forgotten with dropped := h.dropped + missed })
    else if hn : n < h.published.size then (.event h.published[n], h.moveTo i (n + 1))
    else (.empty, h)

/-- How many events a subscriber has yet to pass. -/
def unread (h : Hub) (i : Nat) : Nat :=
  match h.position? i with
  | some n => h.published.size - n
  | none => 0

theorem position?_moveTo {h : Hub} {i n m : Nat} (hi : h.position? i = some n) :
    (h.moveTo i m).position? i = some m := by
  have : i < h.positions.length := by
    apply Classical.byContradiction
    intro hlen
    simp [position?, List.getElem?_eq_none (Nat.not_lt.1 hlen)] at hi
  simp [position?, moveTo, List.getElem?_set_self this]

theorem unread_of_receive {h h' : Hub} {i : Nat} {r : Receipt} (hr : h.receive i = (r, h')) :
    r = .empty ∨ h'.unread i < h.unread i := by
  simp only [receive] at hr
  split at hr
  · cases hr; exact .inl rfl
  · next n hi =>
    have hmove := fun m => position?_moveTo (m := m) hi
    split at hr
    · next hlt =>
      cases hr
      refine .inr ?_
      have hsize : h.forgotten ≤ h.published.size := Nat.sub_le ..
      have := hmove h.forgotten
      simp only [unread, position?, moveTo] at this hi ⊢
      rw [this, hi]
      simp only
      omega
    · split at hr
      · next hlt =>
        cases hr
        refine .inr ?_
        have := hmove (n + 1)
        simp only [unread, position?, moveTo] at this hi ⊢
        rw [this, hi]
        simp only
        omega
      · cases hr; exact .inl rfl

/-- All events that a subscriber finds, gaps passed over. -/
def drain (h : Hub) (i : Nat) : List Event × Hub :=
  match _hr : h.receive i with
  | (.event e, h') =>
    let rest := h'.drain i
    (e :: rest.1, rest.2)
  | (.lagged _, h') => h'.drain i
  | (.empty, h') => ([], h')
termination_by h.unread i
decreasing_by
  all_goals exact (unread_of_receive _hr).resolve_left (by simp)

/-- The next event that a subscriber finds, a gap passed over. -/
def next? (h : Hub) (i : Nat) : Option Event × Hub :=
  match _hr : h.receive i with
  | (.event e, h') => (some e, h')
  | (.lagged _, h') => h'.next? i
  | (.empty, h') => (none, h')
termination_by h.unread i
decreasing_by
  exact (unread_of_receive _hr).resolve_left (by simp)

theorem unread_next?_lt {h h' : Hub} {i : Nat} {e : Event} (hn : h.next? i = (some e, h')) :
    h'.unread i < h.unread i := by
  fun_induction next? h i with
  | case1 h e' next hr =>
    cases hn
    exact (unread_of_receive hr).resolve_left (by simp)
  | case2 h missed next hr ih =>
    exact Nat.lt_trans (ih hn) ((unread_of_receive hr).resolve_left (by simp))
  | case3 h next hr => simp at hn

end Hub

end Dialogue
