import Mathlib.Order.Bounds.Basic
import Dialogue.Hub

/-! A hub accounts for every event. A ledger is kept of what the hub is asked, what it hands out and
which gaps it passes over: the events published, and an account for each subscriber. Whatever is
asked, and in whatever order, hub and ledger agree: each subscriber has received, has missed, or has
yet to pass every event published since it came, and what it received keeps the order of
publication. -/

namespace Dialogue

attribute [local instance(2000)] Zero.ofOfNat0

/-- A hub keeps the least power of two that is not below what it is asked for. -/
theorem isLeast_powerOfTwoFrom (n : Nat) :
    IsLeast {k | n ≤ k ∧ k.isPowerOfTwo} (powerOfTwoFrom (max n 1)) := by
  unfold powerOfTwoFrom
  by_cases hn : n ≤ 1
  · rw [if_pos (by omega)]
    refine ⟨⟨hn, 0, rfl⟩, ?_⟩
    rintro k ⟨-, hk⟩
    exact Nat.pos_of_isPowerOfTwo hk
  · rw [if_neg (by omega), Nat.max_eq_left (by omega)]
    have hlog := fun k => @Nat.log2_lt (n - 1) k (by omega)
    refine ⟨⟨?_, _, rfl⟩, ?_⟩
    · have hlt := (hlog ((n - 1).log2 + 1)).mp (Nat.lt_succ_self _)
      omega
    · rintro _ ⟨hle, k, rfl⟩
      have hlt := (hlog k).mpr (by omega)
      exact Nat.pow_le_pow_right Nat.two_pos hlt

namespace Receipt

def event? : Receipt → Option Event
  | event e => some e
  | lagged _ | empty => none

def missed : Receipt → Nat
  | lagged n => n
  | event _ | empty => 0

end Receipt

namespace Hub

/-! ### What a subscriber finds -/

/-- How many of the events that a subscriber has yet to pass are no longer kept. -/
def gap (h : Hub) (i : Nat) : Nat :=
  match h.position? i with
  | some n => h.forgotten - n
  | none => 0

/-- The hub once a subscriber is past `n` events, `missed` of which it did not find. -/
def pass (h : Hub) (i n missed : Nat) : Hub :=
  { h.moveTo i n with dropped := h.dropped + missed }

section Pass

variable (h : Hub) (i n missed : Nat)

@[simp] theorem published_pass : (h.pass i n missed).published = h.published := rfl

@[simp] theorem forgotten_pass : (h.pass i n missed).forgotten = h.forgotten := rfl

@[simp] theorem dropped_pass : (h.pass i n missed).dropped = h.dropped + missed := rfl

theorem pass_pass (m more : Nat) :
    (h.pass i n missed).pass i m more = h.pass i m (missed + more) := by
  simp [pass, moveTo, Nat.add_assoc]

theorem position?_pass_of_ne {j : Nat} (hij : i ≠ j) :
    (h.pass i n missed).position? j = h.position? j := by
  simp [pass, position?, moveTo, List.getElem?_set_ne hij]

end Pass

section Position

variable {h : Hub} {i n : Nat} (hi : h.position? i = some n)

include hi

theorem gap_eq : h.gap i = h.forgotten - n := by
  simp only [gap, hi]

theorem unread_eq : h.unread i = h.published.size - n := by
  simp only [unread, hi]

theorem lt_length_of_position? : i < h.positions.length :=
  (List.getElem?_eq_some_iff.mp (Option.join_eq_some_iff.mp hi)).1

theorem position?_pass (m missed : Nat) : (h.pass i m missed).position? i = some m :=
  position?_moveTo hi

theorem pass_self : h.pass i n 0 = h := by
  obtain ⟨hlt, hget⟩ := List.getElem?_eq_some_iff.mp (Option.join_eq_some_iff.mp hi)
  rw [pass, moveTo, ← hget, List.set_getElem_self]
  rfl

theorem map_isSome_pass (m missed : Nat) :
    (h.pass i m missed).positions.map Option.isSome = h.positions.map Option.isSome := by
  have hsome : (h.positions.map Option.isSome)[i]? = some true := by
    rw [List.getElem?_map, Option.join_eq_some_iff.mp hi]
    rfl
  obtain ⟨hlt, hget⟩ := List.getElem?_eq_some_iff.mp hsome
  rw [pass, moveTo, List.map_set, Option.isSome_some, ← hget, List.set_getElem_self]

theorem receive_cases {r : Receipt} {h' : Hub} (hr : h.receive i = (r, h')) :
    (n < h.forgotten ∧ r = .lagged (h.forgotten - n) ∧
        h' = h.pass i h.forgotten (h.forgotten - n)) ∨
      (∃ e, h.forgotten ≤ n ∧ h.published[n]? = some e ∧ r = .event e ∧ h' = h.pass i (n + 1) 0) ∨
      (h.forgotten ≤ n ∧ h.published.size ≤ n ∧ r = .empty ∧ h' = h) := by
  simp only [receive, hi] at hr
  by_cases hgap : n < h.forgotten
  · rw [if_pos hgap] at hr
    cases hr
    exact .inl ⟨hgap, rfl, rfl⟩
  · have hkept := Nat.not_lt.mp hgap
    rw [if_neg hgap] at hr
    by_cases hn : n < h.published.size
    · rw [dif_pos hn] at hr
      cases hr
      exact .inr (.inl ⟨_, hkept, Array.getElem?_eq_getElem hn, rfl, rfl⟩)
    · rw [dif_neg hn] at hr
      cases hr
      exact .inr (.inr ⟨hkept, Nat.not_lt.mp hn, rfl, rfl⟩)

end Position

theorem forgotten_le (h : Hub) : h.forgotten ≤ h.published.size := Nat.sub_le _ _

theorem forgotten_lt {h : Hub} (hsize : 0 < h.published.size) : h.forgotten < h.published.size :=
  Nat.sub_lt hsize (powerOfTwoFrom_pos _)

section Result

variable {h : Hub} {i n : Nat}

/-- Draining yields what is kept and not passed yet, and leaves nothing unread. -/
theorem drain_eq (hi : h.position? i = some n) :
    h.drain i = (h.published.toList.drop (max n h.forgotten),
      h.pass i (max n h.published.size) (h.forgotten - n)) := by
  fun_induction drain h i generalizing n with
  | case1 h e h' hr rest =>
      next ih =>
      rcases receive_cases hi hr with ⟨-, ⟨⟩, -⟩ | ⟨_, hkept, hn, ⟨⟩, rfl⟩ | ⟨-, -, ⟨⟩, -⟩
      obtain ⟨hlt, hget⟩ := Array.getElem?_eq_some_iff.mp hn
      have hrest : rest = _ := ih (position?_pass hi _ _)
      rw [hrest, pass_pass, forgotten_pass, published_pass,
        Nat.max_eq_left hkept, Nat.max_eq_left (Nat.le_succ_of_le hkept),
        Nat.max_eq_right (Nat.le_of_lt hlt), Nat.max_eq_right hlt, List.drop_eq_getElem_cons hlt,
        Array.getElem_toList, hget, Nat.sub_eq_zero_of_le hkept,
        Nat.sub_eq_zero_of_le (Nat.le_succ_of_le hkept)]
  | case2 h m h' hr ih =>
      rcases receive_cases hi hr with ⟨hgap, ⟨⟩, rfl⟩ | ⟨_, -, -, ⟨⟩, -⟩ | ⟨-, -, ⟨⟩, -⟩
      have hle := h.forgotten_le
      rw [ih (position?_pass hi _ _), pass_pass, forgotten_pass, published_pass, Nat.max_self,
        Nat.max_eq_right (Nat.le_of_lt hgap)]
      congr 2 <;> omega
  | case3 h h' hr =>
      rcases receive_cases hi hr with ⟨-, ⟨⟩, -⟩ | ⟨_, -, -, ⟨⟩, -⟩ | ⟨hkept, hend, -, rfl⟩
      rw [Nat.max_eq_left hkept, Nat.max_eq_left hend, Nat.sub_eq_zero_of_le hkept, pass_self hi,
        List.drop_eq_nil_of_le hend]

/-- Waiting yields the first event that is kept and not passed yet, where there is one. -/
theorem next?_cases (hi : h.position? i = some n) :
    (∃ e, h.published[max n h.forgotten]? = some e ∧
        h.next? i = (some e, h.pass i (max n h.forgotten + 1) (h.forgotten - n))) ∨
      (h.forgotten ≤ n ∧ h.published.size ≤ n ∧ h.next? i = (none, h)) := by
  fun_induction next? h i generalizing n with
  | case1 h e h' hr =>
      rcases receive_cases hi hr with ⟨-, ⟨⟩, -⟩ | ⟨_, hkept, hn, ⟨⟩, rfl⟩ | ⟨-, -, ⟨⟩, -⟩
      rw [Nat.max_eq_left hkept, Nat.sub_eq_zero_of_le hkept]
      exact .inl ⟨e, hn, rfl⟩
  | case2 h m h' hr ih =>
      rcases receive_cases hi hr with ⟨hgap, ⟨⟩, rfl⟩ | ⟨_, -, -, ⟨⟩, -⟩ | ⟨-, -, ⟨⟩, -⟩
      rw [Nat.max_eq_right (Nat.le_of_lt hgap)]
      rcases ih (position?_pass hi _ _) with ⟨e, hn, he⟩ | ⟨-, hend, -⟩
      · rw [forgotten_pass, Nat.max_self] at hn he
        rw [he, pass_pass, Nat.sub_self, Nat.add_zero]
        exact .inl ⟨e, hn, rfl⟩
      · -- a gap ends before the last event
        have hle := h.forgotten_le
        have hlt : h.forgotten < h.published.size := forgotten_lt (by omega)
        exact absurd hend (Nat.not_le.mpr hlt)
  | case3 h h' hr =>
      rcases receive_cases hi hr with ⟨-, ⟨⟩, -⟩ | ⟨_, -, -, ⟨⟩, -⟩ | ⟨hkept, hend, -, rfl⟩
      exact .inr ⟨hkept, hend, rfl⟩

theorem next?_eq (hi : h.position? i = some n) :
    (h.next? i).1 = h.published[max n h.forgotten]? := by
  rcases next?_cases hi with ⟨e, he, hnext⟩ | ⟨hkept, hend, hnext⟩
  · rw [hnext, he]
  · rw [hnext, Nat.max_eq_left hkept, Array.getElem?_eq_none hend]

/-! A subscriber that has left finds nothing. -/

theorem receive_of_none (hi : h.position? i = none) : h.receive i = (.empty, h) := by
  simp only [receive, hi]

theorem drain_of_none (hi : h.position? i = none) : h.drain i = ([], h) := by
  rw [drain]
  split
  · next hr => cases (receive_of_none hi).symm.trans hr
  · next hr => cases (receive_of_none hi).symm.trans hr
  · next hr =>
    cases (receive_of_none hi).symm.trans hr
    rfl

theorem next?_of_none (hi : h.position? i = none) : h.next? i = (none, h) := by
  rw [next?]
  split
  · next hr => cases (receive_of_none hi).symm.trans hr
  · next hr => cases (receive_of_none hi).symm.trans hr
  · next hr =>
    cases (receive_of_none hi).symm.trans hr
    rfl

theorem gap_of_none (hi : h.position? i = none) : h.gap i = 0 := by
  simp only [gap, hi]

end Result

/-! ### What a ledger says -/

/-- A subscriber's account: how many events had been published when it came, what it has received
since, how many events it has missed, and whether it is still there. -/
structure Account where
  since : Nat
  received : List Event
  missed : Nat
  isOpen : Bool
  deriving DecidableEq, Repr

namespace Account

def add (a : Account) (found : List Event) (missed : Nat) : Account :=
  { a with received := a.received ++ found, missed := a.missed + missed }

def close (a : Account) : Account := { a with isOpen := false }

/-- Whether the account of a subscriber that has passed `n` events is right: what it received are
events from its time, in order and each once, and together with the missed ones they are all. -/
structure Agrees (published : List Event) (n : Nat) (a : Account) : Prop where
  since_le : a.since ≤ n
  le_length : n ≤ published.length
  places : ∃ places : List Nat, places.Pairwise (· < ·) ∧ (∀ k ∈ places, a.since ≤ k ∧ k < n) ∧
    places.map (fun k => published[k]?) = a.received.map some
  count : a.since + a.received.length + a.missed = n

section Agrees

variable {published : List Event} {n : Nat} {a : Account} (h : a.Agrees published n)

include h

/-- A subscriber goes on to place `m`, and receives what stands from there on. -/
theorem Agrees.add {m : Nat} {found : List Event} (hn : n ≤ m)
    (hm : m + found.length ≤ published.length)
    (hfound : (List.range' m found.length).map (fun k => published[k]?) = found.map some) :
    (a.add found (m - n)).Agrees published (m + found.length) := by
  obtain ⟨places, hincreasing, hwithin, hreceived⟩ := h.places
  have hsince := h.since_le
  have hcount := h.count
  refine ⟨by simp only [Account.add]; omega, hm,
    ⟨places ++ List.range' m found.length, ?_, fun k hk => ?_, ?_⟩, ?_⟩
  · refine List.pairwise_append.mpr ⟨hincreasing, List.pairwise_lt_range', fun k hk l hl => ?_⟩
    have hkn := (hwithin k hk).2
    have hml := (List.mem_range'_1.mp hl).1
    omega
  · simp only [Account.add]
    rcases List.mem_append.mp hk with hk | hk
    · have hkn := hwithin k hk
      omega
    · have hml := List.mem_range'_1.mp hk
      omega
  · simp only [Account.add, List.map_append, hreceived, hfound]
  · simp only [Account.add, List.length_append]
    omega

theorem Agrees.publish (e : Event) : a.Agrees (published ++ [e]) n := by
  obtain ⟨places, hincreasing, hwithin, hreceived⟩ := h.places
  refine ⟨h.since_le, ?_, ⟨places, hincreasing, hwithin, ?_⟩, h.count⟩
  · rw [List.length_append]
    exact Nat.le_add_right_of_le h.le_length
  · rw [← hreceived]
    refine List.map_congr_left fun k hk => ?_
    exact List.getElem?_append_left (Nat.lt_of_lt_of_le (hwithin k hk).2 h.le_length)

end Agrees

end Account

/-- The events published, and the accounts of all subscribers, those that have left among them. -/
structure Ledger where
  published : List Event
  accounts : List Account

namespace Ledger

def empty : Ledger := ⟨[], []⟩

def subscribe (l : Ledger) : Ledger :=
  { l with accounts := l.accounts ++ [⟨l.published.length, [], 0, true⟩] }

def unsubscribe (l : Ledger) (i : Nat) : Ledger :=
  { l with accounts := l.accounts.modify i Account.close }

def publish (l : Ledger) (e : Event) : Ledger :=
  if l.accounts.any Account.isOpen then { l with published := l.published ++ [e] } else l

/-- Adds to the account of a subscriber. -/
def note (l : Ledger) (i : Nat) (found : List Event) (missed : Nat) : Ledger :=
  { l with accounts := l.accounts.modify i fun a => a.add found missed }

end Ledger

/-- What a hub is asked to do. -/
inductive Call where
  | subscribe
  | unsubscribe (i : Nat)
  | publish (e : Event)
  | receive (i : Nat)
  | drain (i : Nat)
  | next (i : Nat)

def perform (h : Hub) : Call → Hub
  | .subscribe => h.subscribe
  | .unsubscribe i => h.unsubscribe i
  | .publish e => (h.publish? e).getD h
  | .receive i => (h.receive i).2
  | .drain i => (h.drain i).2
  | .next i => (h.next? i).2

/-- The ledger after a call. What a subscriber finds is what the call returns to it, and of a gap
that is passed over without a word it misses all events. -/
def book (h : Hub) (l : Ledger) : Call → Ledger
  | .subscribe => l.subscribe
  | .unsubscribe i => l.unsubscribe i
  | .publish e => l.publish e
  | .receive i => l.note i (h.receive i).1.event?.toList (h.receive i).1.missed
  | .drain i => l.note i (h.drain i).1 (h.gap i)
  | .next i => l.note i (h.next? i).1.toList (h.gap i)

/-- A hub and its ledger after some calls. -/
def after (h : Hub) (l : Ledger) : List Call → Hub × Ledger
  | [] => (h, l)
  | call :: rest => (h.perform call).after (h.book l call) rest

/-- Whether a hub that keeps `retention` events agrees with its ledger. -/
structure Balanced (retention : Nat) (h : Hub) (l : Ledger) : Prop where
  retention_eq : h.retention = retention
  published : h.published.toList = l.published
  isOpen : l.accounts.map Account.isOpen = h.positions.map Option.isSome
  dropped : h.dropped = (l.accounts.map Account.missed).sum
  agrees : ∀ i n, h.position? i = some n → ∃ a, l.accounts[i]? = some a ∧ a.Agrees l.published n

section Modify

variable {i : Nat} {accounts : List Account}

theorem map_modify {α : Type} (f : Account → α) (g : Account → Account)
    (h : ∀ a, f (g a) = f a) : (accounts.modify i g).map f = accounts.map f := by
  apply List.ext_getElem?
  intro j
  rw [List.getElem?_map, List.getElem?_map, List.getElem?_modify, Option.map_eq_map, Option.map_map]
  congr 1
  funext a
  by_cases hij : i = j <;> simp [hij, h]

theorem map_isOpen_close :
    (accounts.modify i Account.close).map Account.isOpen =
      (accounts.map Account.isOpen).set i false := by
  induction accounts generalizing i with
  | nil => simp
  | cons a rest ih =>
      cases i with
      | zero => simp [Account.close]
      | succ i => simp [ih]

theorem sum_missed_add {found : List Event} {missed : Nat} (hi : i < accounts.length) :
    ((accounts.modify i fun a => a.add found missed).map Account.missed).sum =
      (accounts.map Account.missed).sum + missed := by
  induction accounts generalizing i with
  | nil => exact absurd hi (Nat.not_lt_zero i)
  | cons a rest ih =>
      cases i with
      | zero =>
          simp [Account.add]
          omega
      | succ i =>
          have hrest := ih (Nat.lt_of_succ_lt_succ hi)
          simp [hrest]
          omega

end Modify

theorem Ledger.note_nil (l : Ledger) (i : Nat) : l.note i [] 0 = l := by
  have hsame : l.accounts.modify i (fun a => a.add [] 0) = l.accounts := by
    apply List.ext_getElem?
    intro j
    rw [List.getElem?_modify]
    by_cases hij : i = j <;> simp [hij, Account.add]
  rw [Ledger.note, hsame]

theorem map_getElem?_range' (es : List Event) (m : Nat) :
    (List.range' m (es.drop m).length).map (fun k => es[k]?) = (es.drop m).map some := by
  apply List.ext_getElem
  · simp
  · intro k hk _
    have hlt : m + k < es.length := by
      simp at hk
      omega
    simp [hlt]

section Balanced

variable {retention : Nat} {h : Hub} {l : Ledger} (hb : h.Balanced retention l)

include hb

theorem Balanced.size_eq : h.published.size = l.published.length := by
  rw [← hb.published, Array.length_toList]

theorem Balanced.length_eq : l.accounts.length = h.positions.length := by
  simpa using congrArg List.length hb.isOpen

theorem Balanced.forgotten_eq : h.forgotten = l.published.length - retention := by
  rw [forgotten, hb.size_eq, hb.retention_eq]

theorem Balanced.exists_position {i : Nat} {a : Account} (ha : l.accounts[i]? = some a)
    (hopen : a.isOpen = true) : ∃ n, h.position? i = some n := by
  have hi : (l.accounts.map Account.isOpen)[i]? = some true := by
    rw [List.getElem?_map, ha, Option.map_some, hopen]
  rw [hb.isOpen, List.getElem?_map, Option.map_eq_some_iff] at hi
  obtain ⟨position, hposition, hsome⟩ := hi
  obtain ⟨n, rfl⟩ := Option.isSome_iff_exists.mp hsome
  exact ⟨n, Option.join_eq_some_iff.mpr hposition⟩

theorem Balanced.position_le {i n : Nat} (hi : h.position? i = some n) :
    n ≤ h.published.size := by
  obtain ⟨a, -, hright⟩ := hb.agrees i n hi
  rw [hb.size_eq]
  exact hright.le_length

/-- A subscriber goes on to place `m`, and receives what stands from there on. -/
theorem Balanced.pass {i n m : Nat} (found : List Event) (hi : h.position? i = some n) (hn : n ≤ m)
    (hm : m + found.length ≤ h.published.size)
    (hfound : (List.range' m found.length).map (fun k => l.published[k]?) = found.map some) :
    (h.pass i (m + found.length) (m - n)).Balanced retention (l.note i found (m - n)) := by
  have hlt : i < l.accounts.length := hb.length_eq ▸ lt_length_of_position? hi
  refine ⟨hb.retention_eq, hb.published, ?_, ?_, fun j k hj => ?_⟩
  · rw [map_isSome_pass hi, ← hb.isOpen]
    exact map_modify Account.isOpen _ fun _ => rfl
  · rw [dropped_pass, Ledger.note, sum_missed_add hlt, hb.dropped]
  · rw [Ledger.note, List.getElem?_modify]
    by_cases hij : i = j
    · subst hij
      obtain ⟨a, ha, hright⟩ := hb.agrees i n hi
      obtain rfl := Option.some.inj ((position?_pass hi _ _).symm.trans hj)
      exact ⟨a.add found (m - n), by simp [ha], hright.add hn (hb.size_eq ▸ hm) hfound⟩
    · rw [position?_pass_of_ne _ _ _ _ hij] at hj
      obtain ⟨a, ha, hright⟩ := hb.agrees j k hj
      exact ⟨a, by simp [ha, hij], hright⟩

theorem Balanced.pass_one {i n m missed : Nat} {e : Event} (hi : h.position? i = some n)
    (hn : n ≤ m) (he : h.published[m]? = some e) (hmissed : m - n = missed) :
    (h.pass i (m + 1) missed).Balanced retention (l.note i [e] missed) := by
  obtain ⟨hlt, -⟩ := Array.getElem?_eq_some_iff.mp he
  have hfound : l.published[m]? = some e := by
    rw [← hb.published, Array.getElem?_toList, he]
  have hpass := hb.pass [e] hi hn hlt (by simp [hfound])
  rwa [hmissed] at hpass

theorem Balanced.receive (i : Nat) :
    (h.receive i).2.Balanced retention
      (l.note i (h.receive i).1.event?.toList (h.receive i).1.missed) := by
  cases hi : h.position? i with
  | none =>
      rw [receive_of_none hi]
      exact (l.note_nil i).symm ▸ hb
  | some n =>
      cases hr : h.receive i with
      | mk r h' =>
          rcases receive_cases hi hr with ⟨hgap, rfl, rfl⟩ | ⟨e, -, hn, rfl, rfl⟩ | ⟨-, -, rfl, rfl⟩
          · exact hb.pass [] hi (Nat.le_of_lt hgap) h.forgotten_le rfl
          · exact hb.pass_one hi (Nat.le_refl n) hn (Nat.sub_self n)
          · exact (l.note_nil i).symm ▸ hb

theorem Balanced.drain (i : Nat) :
    (h.drain i).2.Balanced retention (l.note i (h.drain i).1 (h.gap i)) := by
  cases hi : h.position? i with
  | none =>
      rw [drain_of_none hi, gap_of_none hi, l.note_nil]
      exact hb
  | some n =>
      have hn := hb.position_le hi
      have hle := h.forgotten_le
      have hsize := hb.size_eq
      have hend : max n h.forgotten + (l.published.drop (max n h.forgotten)).length =
          max n h.published.size := by
        rw [List.length_drop]
        omega
      have hgap : max n h.forgotten - n = h.forgotten - n := by omega
      have hpass := hb.pass (l.published.drop (max n h.forgotten)) hi
        (Nat.le_max_left n h.forgotten) (by omega) (map_getElem?_range' _ _)
      rw [hend, hgap] at hpass
      rw [drain_eq hi, gap_eq hi, hb.published]
      exact hpass

theorem Balanced.next? (i : Nat) :
    (h.next? i).2.Balanced retention (l.note i (h.next? i).1.toList (h.gap i)) := by
  cases hi : h.position? i with
  | none =>
      rw [next?_of_none hi, gap_of_none hi]
      exact (l.note_nil i).symm ▸ hb
  | some n =>
      rcases next?_cases hi with ⟨e, hn, he⟩ | ⟨hkept, -, he⟩
      · rw [he, gap_eq hi]
        exact hb.pass_one hi (Nat.le_max_left n h.forgotten) hn (by omega)
      · rw [he, gap_eq hi, Nat.sub_eq_zero_of_le hkept]
        exact (l.note_nil i).symm ▸ hb

theorem Balanced.subscribe : h.subscribe.Balanced retention l.subscribe := by
  refine ⟨hb.retention_eq, hb.published, ?_, ?_, fun i n hi => ?_⟩
  · simp [Ledger.subscribe, Hub.subscribe, hb.isOpen]
  · simp [Ledger.subscribe, Hub.subscribe, hb.dropped]
  · have hget := Option.join_eq_some_iff.mp hi
    simp only [Hub.subscribe, List.getElem?_append] at hget
    simp only [Ledger.subscribe]
    split at hget
    · next hlt =>
      obtain ⟨a, ha, hright⟩ := hb.agrees i n (Option.join_eq_some_iff.mpr hget)
      exact ⟨a, by rw [List.getElem?_append_left (hb.length_eq ▸ hlt), ha], hright⟩
    · next hge =>
      obtain ⟨hnew, hsize⟩ : i - h.positions.length = 0 ∧ h.published.size = n := by
        simpa [List.getElem?_singleton] using hget
      obtain rfl : l.published.length = n := hb.size_eq.symm.trans hsize
      refine ⟨⟨l.published.length, [], 0, true⟩, ?_,
        ⟨Nat.le_refl _, Nat.le_refl _, ⟨[], .nil, nofun, rfl⟩, rfl⟩⟩
      rw [List.getElem?_append_right (hb.length_eq ▸ Nat.not_lt.mp hge), hb.length_eq, hnew]
      rfl

theorem Balanced.unsubscribe (i : Nat) :
    (h.unsubscribe i).Balanced retention (l.unsubscribe i) := by
  refine ⟨hb.retention_eq, hb.published, ?_, ?_, fun j n hj => ?_⟩
  · simp only [Ledger.unsubscribe, Hub.unsubscribe, map_isOpen_close, hb.isOpen, List.map_set,
      Option.isSome_none]
  · have hmissed : (l.accounts.modify i Account.close).map Account.missed =
        l.accounts.map Account.missed := map_modify Account.missed Account.close fun _ => rfl
    rw [Ledger.unsubscribe, hmissed]
    exact hb.dropped
  · have hget := Option.join_eq_some_iff.mp hj
    simp only [Hub.unsubscribe, List.getElem?_set] at hget
    split at hget
    · split at hget <;> cases hget
    · next hij =>
      obtain ⟨a, ha, hright⟩ := hb.agrees j n (Option.join_eq_some_iff.mpr hget)
      exact ⟨a, by simp [Ledger.unsubscribe, ha, hij], hright⟩

theorem Balanced.publish (e : Event) :
    ((h.publish? e).getD h).Balanced retention (l.publish e) := by
  have hany : l.accounts.any Account.isOpen = h.positions.any Option.isSome := by
    have hmap := congrArg (List.any · id) hb.isOpen
    simpa [List.any_map] using hmap
  unfold publish? Ledger.publish
  rw [hany]
  by_cases hnobody : h.subscriberCount = 0
  · have hnone : h.positions.any Option.isSome = false :=
      List.any_eq_false.mpr (List.countP_eq_zero.mp hnobody)
    rw [if_pos hnobody, hnone, if_neg Bool.false_ne_true]
    exact hb
  · have hsome : h.positions.any Option.isSome = true :=
      List.any_eq_true.mpr (List.countP_pos_iff.mp (Nat.pos_of_ne_zero hnobody))
    rw [if_neg hnobody, if_pos hsome]
    refine ⟨hb.retention_eq, ?_, hb.isOpen, hb.dropped, fun i n hi => ?_⟩
    · simp [hb.published]
    · obtain ⟨a, ha, hright⟩ := hb.agrees i n hi
      exact ⟨a, ha, hright.publish e⟩

theorem Balanced.perform (call : Call) :
    (h.perform call).Balanced retention (h.book l call) := by
  cases call with
  | subscribe => exact hb.subscribe
  | unsubscribe i => exact hb.unsubscribe i
  | publish e => exact hb.publish e
  | receive i => exact hb.receive i
  | drain i => exact hb.drain i
  | next i => exact hb.next? i

theorem Balanced.after (calls : List Call) :
    (h.after l calls).1.Balanced retention (h.after l calls).2 := by
  induction calls generalizing h l with
  | nil => exact hb
  | cons call rest ih => exact ih (hb.perform call)

end Balanced

/-- Whatever a hub is asked to do, all its events are accounted for. What a subscriber received are
events published since it came, in order and each once, and together with those that it has missed
and those that it has yet to pass they are all. The hub has counted all the misses. It keeps as many
events as the least power of two that it was asked for or more; the next event that a subscriber
finds is the oldest that is kept and not passed, and draining yields all of these. -/
theorem every_event_accounted_for (capacity : Nat) (calls : List Call) :
    let h := ((ofCapacity capacity).after .empty calls).1
    let l := ((ofCapacity capacity).after .empty calls).2
    h.published.toList = l.published ∧
      h.dropped = (l.accounts.map Account.missed).sum ∧
      ∃ retention, IsLeast {k | capacity ≤ k ∧ k.isPowerOfTwo} retention ∧
        ∀ i a, l.accounts[i]? = some a → a.isOpen = true → ∃ n, h.position? i = some n ∧
          (∃ places : List Nat, places.Pairwise (· < ·) ∧
            (∀ k ∈ places, a.since ≤ k ∧ k < l.published.length) ∧
            places.map (fun k => l.published[k]?) = a.received.map some) ∧
          a.since + a.received.length + a.missed + h.unread i = l.published.length ∧
          let unread := l.published.drop (max n (l.published.length - retention))
          (h.next? i).1 = unread.head? ∧
            (h.drain i).1 = unread ∧ (h.drain i).2.unread i = 0 := by
  intro h l
  have hempty : (ofCapacity capacity).Balanced (powerOfTwoFrom (max capacity 1)) .empty :=
    ⟨rfl, rfl, rfl, rfl, nofun⟩
  have hb : h.Balanced (powerOfTwoFrom (max capacity 1)) l := hempty.after calls
  refine ⟨hb.published, hb.dropped, _, isLeast_powerOfTwoFrom capacity, fun i a ha hopen => ?_⟩
  obtain ⟨n, hi⟩ := hb.exists_position ha hopen
  obtain ⟨a', ha', hright⟩ := hb.agrees i n hi
  obtain rfl := Option.some.inj (ha.symm.trans ha')
  obtain ⟨places, hincreasing, hwithin, hreceived⟩ := hright.places
  have hlength := hright.le_length
  have hsize := hb.size_eq
  refine ⟨n, hi, ⟨places, hincreasing, fun k hk => ?_, hreceived⟩, ?_, ?_, ?_, ?_⟩
  · exact ⟨(hwithin k hk).1, Nat.lt_of_lt_of_le (hwithin k hk).2 hlength⟩
  · have hcount := hright.count
    rw [unread_eq hi]
    omega
  · rw [next?_eq hi, ← hb.forgotten_eq, List.head?_drop, ← hb.published, Array.getElem?_toList]
  · rw [drain_eq hi, ← hb.forgotten_eq, hb.published]
  · rw [drain_eq hi, unread_eq (position?_pass hi _ _), published_pass]
    omega

/-- Of five events a subscriber has missed three and received one, and draining yields the last. -/
theorem every_event_accounted_for_slow :
    let calls := .subscribe :: ["a", "b", "c", "d", "e"].map (fun m => .publish (.diagnostic "t" m))
      ++ [.receive 0, .receive 0]
    let h := ((ofCapacity 2).after .empty calls).1
    h.dropped = 3 ∧ (h.drain 0).1 = [.diagnostic "t" "e"] := by
  intro calls h
  obtain ⟨-, hdropped, retention, hleast, haccount⟩ := every_event_accounted_for 2 calls
  obtain rfl : retention = 2 := hleast.unique (isLeast_powerOfTwoFrom 2)
  obtain ⟨n, hi, -, -, -, hdrain, -⟩ :=
    haccount 0 ⟨0, [.diagnostic "t" "d"], 3, true⟩ (by decide +kernel) rfl
  have hn : h.position? 0 = some 4 := by decide +kernel
  obtain rfl : n = 4 := Option.some.inj (hi.symm.trans hn)
  exact ⟨hdropped.trans (by decide +kernel), hdrain.trans (by decide +kernel)⟩

end Hub

end Dialogue
