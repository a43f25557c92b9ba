import Mathlib.Order.Bounds.Defs
import Mathlib.Order.MinMax
import Dialogue.Text.Distance

/-! The distance of two texts is the least number of edits. The first entries of rows obey the rules
of the table; by these rules an edit brings a text nearer to any other by one at most, so no script
is shorter than the texts are apart, and along the same rules a script as short as that is found. -/

namespace Dialogue.Text

/-! ### The rules of the table -/

def apart (cs ds : List Char) : Nat := (lastRow cs ds).headD 0

theorem lastRow_cons (c : Char) (cs ds : List Char) :
    lastRow (c :: cs) ds = nextRow c ds (lastRow cs ds) := rfl

theorem tail_lastRow (cs : List Char) (d : Char) (ds : List Char) :
    (lastRow cs (d :: ds)).tail = lastRow cs ds := by
  induction cs with
  | nil => rfl
  | cons c cs ih =>
      rw [lastRow_cons, nextRow, List.tail_cons, ih, lastRow_cons]

theorem apart_nil (ds : List Char) : apart [] ds = ds.length := by
  cases ds with
  | nil => rfl
  | cons d ds => rfl

theorem apart_nil_right (cs : List Char) : apart cs [] = cs.length := by
  induction cs with
  | nil => rfl
  | cons c cs ih => exact congrArg (· + 1) ih

theorem apart_cons_cons (c d : Char) (cs ds : List Char) :
    apart (c :: cs) (d :: ds) =
      min (apart cs (d :: ds) + 1)
        (min (apart (c :: cs) ds + 1) (apart cs ds + if c = d then 0 else 1)) := by
  simp only [apart, lastRow_cons, nextRow, tail_lastRow, List.headD_cons]

theorem apart_cons_le (c : Char) (cs ds : List Char) : apart (c :: cs) ds ≤ apart cs ds + 1 := by
  cases ds with
  | nil => simp [apart_nil_right]
  | cons d ds =>
      rw [apart_cons_cons]
      exact Nat.min_le_left _ _

theorem apart_cons_right_le (cs : List Char) (d : Char) (ds : List Char) :
    apart cs (d :: ds) ≤ apart cs ds + 1 := by
  cases cs with
  | nil => simp [apart_nil]
  | cons c cs =>
      rw [apart_cons_cons]
      omega

theorem apart_self (cs : List Char) : apart cs cs = 0 := by
  induction cs with
  | nil => rfl
  | cons c cs ih =>
      rw [apart_cons_cons, ih, if_pos rfl]
      omega

/-! ### The table from the beginnings

The rows run over the ends of the two texts. Over their beginnings the rules are the same, so a
table that is filled from the first characters on has the distance in its last corner. -/

/-- What the first characters cost and what the last ones cost can be weighed in either order. -/
theorem min_exchange (a b c d e f g h i m n : Nat) :
    min (min (a + 1) (min (b + 1) (c + n)) + 1)
        (min (min (d + 1) (min (e + 1) (f + n)) + 1) (min (g + 1) (min (h + 1) (i + n)) + m)) =
      min (min (a + 1) (min (d + 1) (g + m)) + 1)
        (min (min (b + 1) (min (e + 1) (h + m)) + 1)
          (min (c + 1) (min (f + 1) (i + m)) + n)) := by
  simp only [← Nat.add_min_add_right]
  ac_rfl

theorem apart_append_singleton (c d : Char) (cs ds : List Char) :
    apart (cs ++ [c]) (ds ++ [d]) =
      min (apart cs (ds ++ [d]) + 1)
        (min (apart (cs ++ [c]) ds + 1) (apart cs ds + if c = d then 0 else 1)) := by
  induction cs generalizing ds with
  | nil =>
      induction ds with
      | nil => exact apart_cons_cons c d [] []
      | cons e ds ih =>
          simp only [List.nil_append, List.cons_append, apart_cons_cons, apart_nil,
            List.length_cons, List.length_append, List.length_nil] at ih ⊢
          rw [ih]
          omega
  | cons b cs ih =>
      induction ds with
      | nil =>
          have hrest := ih []
          simp only [List.nil_append, List.cons_append, apart_cons_cons, apart_nil_right,
            List.length_cons, List.length_append, List.length_nil] at hrest ⊢
          rw [hrest]
          omega
      | cons e ds ihd =>
          have hwhole := ih (e :: ds)
          have hrest := ih ds
          simp only [List.cons_append, apart_cons_cons] at hwhole hrest ihd ⊢
          rw [hwhole, hrest, ihd]
          exact min_exchange _ _ _ _ _ _ _ _ _ _ _

/-- The rules by which a table is filled from the beginnings of two texts. -/
structure IsTable (cs ds : List Char) (entry : Nat → Nat → Nat) : Prop where
  zero_left : ∀ j ≤ ds.length, entry 0 j = j
  zero_right : ∀ i ≤ cs.length, entry i 0 = i
  succ_succ : ∀ i j (_ : i < cs.length) (_ : j < ds.length),
    entry (i + 1) (j + 1) =
      min (entry i (j + 1) + 1)
        (min (entry (i + 1) j + 1) (entry i j + if cs[i] = ds[j] then 0 else 1))

theorem isTable_apart (cs ds : List Char) :
    IsTable cs ds fun i j => apart (cs.take i) (ds.take j) where
  zero_left j hj := by rw [List.take_zero, apart_nil, List.length_take_of_le hj]
  zero_right i hi := by rw [List.take_zero, apart_nil_right, List.length_take_of_le hi]
  succ_succ i j hi hj := by
    rw [← List.take_append_getElem hi, ← List.take_append_getElem hj, apart_append_singleton]

namespace IsTable

variable {cs ds : List Char} {entry other : Nat → Nat → Nat}

/-- The rules leave no choice. -/
theorem entry_eq (h : IsTable cs ds entry) (hother : IsTable cs ds other) {i j : Nat}
    (hi : i ≤ cs.length) (hj : j ≤ ds.length) : entry i j = other i j := by
  induction i generalizing j with
  | zero => rw [h.zero_left j hj, hother.zero_left j hj]
  | succ i ih =>
      induction j with
      | zero => rw [h.zero_right _ hi, hother.zero_right _ hi]
      | succ j ihj =>
          have hi' := Nat.le_of_lt hi
          have hj' := Nat.le_of_lt hj
          rw [h.succ_succ i j hi hj, hother.succ_succ i j hi hj, ih hi' hj, ihj hj', ih hi' hj']

theorem distance_eq {s t : String} (h : IsTable s.toList t.toList entry) :
    distance s t = entry s.length t.length := by
  have hcorner := h.entry_eq (isTable_apart s.toList t.toList) (Nat.le_refl _) (Nat.le_refl _)
  rw [List.take_length, List.take_length, String.length_toList, String.length_toList] at hcorner
  exact hcorner.symm

end IsTable

/-! ### Edits -/

/-- A change of one character: one is added in front of a place, or the one at a place is dropped or
replaced. -/
inductive Edit where
  | add (place : Nat) (c : Char)
  | drop (place : Nat)
  | replace (place : Nat) (c : Char)
  deriving DecidableEq, Repr

namespace Edit

/-- What the edit makes of a text that has the place. A character can also be added at the end. -/
def result? : Edit → List Char → Option (List Char)
  | add i c, cs => if i ≤ cs.length then some (cs.insertIdx i c) else none
  | drop i, cs => if i < cs.length then some (cs.eraseIdx i) else none
  | replace i c, cs => if i < cs.length then some (cs.set i c) else none

def run (script : List Edit) (cs : List Char) : Option (List Char) :=
  script.foldlM (fun cs e => e.result? cs) cs

def further : Edit → Edit
  | add i c => add (i + 1) c
  | drop i => drop (i + 1)
  | replace i c => replace (i + 1) c

theorem result?_further (e : Edit) (c : Char) (cs : List Char) :
    e.further.result? (c :: cs) = (e.result? cs).map (c :: ·) := by
  cases e with
  | add i d => by_cases h : i ≤ cs.length <;> simp [further, result?, h]
  | drop i => by_cases h : i < cs.length <;> simp [further, result?, h]
  | replace i d => by_cases h : i < cs.length <;> simp [further, result?, h]

theorem run_cons (e : Edit) (script : List Edit) (cs : List Char) :
    run (e :: script) cs = (e.result? cs).bind (run script) := rfl

theorem run_append (script script' : List Edit) (cs : List Char) :
    run (script ++ script') cs = (run script cs).bind (run script') :=
  List.foldlM_append

theorem run_map_further (script : List Edit) (c : Char) (cs : List Char) :
    run (script.map further) (c :: cs) = (run script cs).map (c :: ·) := by
  induction script generalizing cs with
  | nil => rfl
  | cons e script ih =>
      rw [List.map_cons, run_cons, run_cons, result?_further]
      cases e.result? cs with
      | none => rfl
      | some next => exact ih next

end Edit

/-! ### No script is shorter -/

/-- Whether the first text is, seen from any other, at most one further away than the second. -/
def IsNear (cs ds : List Char) : Prop := ∀ ts, apart cs ts ≤ apart ds ts + 1

namespace IsNear

theorem cons_left (c : Char) (cs : List Char) : IsNear (c :: cs) cs := apart_cons_le c cs

theorem cons_right (c : Char) (cs : List Char) : IsNear cs (c :: cs) := by
  intro ts
  induction ts with
  | nil =>
      rw [apart_nil_right, apart_nil_right, List.length_cons]
      omega
  | cons t ts ih =>
      -- whatever becomes of `c`, the shorter text can come to `ts` and have `t` added
      have hlonger := apart_cons_right_le cs t ts
      rw [apart_cons_cons]
      split <;> omega

theorem cons_cons (c d : Char) (cs : List Char) : IsNear (c :: cs) (d :: cs) := by
  intro ts
  induction ts with
  | nil =>
      rw [apart_nil_right, apart_nil_right, List.length_cons, List.length_cons]
      omega
  | cons t ts ih =>
      rw [apart_cons_cons, apart_cons_cons]
      split <;> split <;> omega

theorem cons {cs ds : List Char} (h : IsNear cs ds) (c : Char) : IsNear (c :: cs) (c :: ds) := by
  intro ts
  induction ts with
  | nil =>
      have hnil := h []
      rw [apart_nil_right, apart_nil_right] at hnil ⊢
      rw [List.length_cons, List.length_cons]
      omega
  | cons t ts ih =>
      have hwhole := h (t :: ts)
      have hrest := h ts
      rw [apart_cons_cons, apart_cons_cons]
      omega

end IsNear

/-- An edit brings a text nearer to any other by one at most. -/
theorem isNear_of_result? {e : Edit} {cs ds : List Char} (h : e.result? cs = some ds) :
    IsNear cs ds := by
  induction cs generalizing e ds with
  | nil =>
      cases e with
      | add i c =>
          simp only [Edit.result?, List.length_nil, Option.ite_none_right_eq_some] at h
          obtain ⟨hi, h⟩ := h
          obtain rfl := Nat.le_zero.mp hi
          cases h
          exact .cons_right c []
      | drop i => cases h
      | replace i c => cases h
  | cons c cs ih =>
      -- behind the first character, the edit is one of the rest
      have hbehind : ∀ e' : Edit, e'.further.result? (c :: cs) = some ds → IsNear (c :: cs) ds := by
        intro e' he'
        rw [Edit.result?_further, Option.map_eq_some_iff] at he'
        obtain ⟨rest, hrest, rfl⟩ := he'
        exact (ih hrest).cons c
      cases e with
      | add i d =>
          cases i with
          | zero =>
              cases h
              exact .cons_right d (c :: cs)
          | succ i => exact hbehind (.add i d) h
      | drop i =>
          cases i with
          | zero =>
              cases h
              exact .cons_left c cs
          | succ i => exact hbehind (.drop i) h
      | replace i d =>
          cases i with
          | zero =>
              cases h
              exact .cons_cons c d cs
          | succ i => exact hbehind (.replace i d) h

/-- No script is shorter than the texts are apart between which it leads. -/
theorem apart_le_length {script : List Edit} {cs ds : List Char}
    (h : Edit.run script cs = some ds) : apart cs ds ≤ script.length := by
  induction script generalizing cs with
  | nil =>
      cases h
      rw [apart_self]
      exact Nat.zero_le _
  | cons e script ih =>
      rw [Edit.run_cons, Option.bind_eq_some_iff] at h
      obtain ⟨next, he, hscript⟩ := h
      have hstep := isNear_of_result? he ds
      have hrest := ih hscript
      rw [List.length_cons]
      omega

/-! ### A script is as short -/

/-- Whether a script of so many edits turns the first text into the second. -/
def TurnsInto (cs ds : List Char) (n : Nat) : Prop :=
  ∃ script : List Edit, script.length = n ∧ Edit.run script cs = some ds

namespace TurnsInto

variable {cs ds : List Char} {n : Nat}

theorem refl (cs : List Char) : TurnsInto cs cs 0 := ⟨[], rfl, rfl⟩

theorem drop (h : TurnsInto cs ds n) (c : Char) : TurnsInto (c :: cs) ds (n + 1) := by
  obtain ⟨script, rfl, hrun⟩ := h
  exact ⟨.drop 0 :: script, rfl, hrun⟩

theorem add (h : TurnsInto cs ds n) (d : Char) : TurnsInto cs (d :: ds) (n + 1) := by
  obtain ⟨script, rfl, hrun⟩ := h
  refine ⟨script ++ [.add 0 d], List.length_append, ?_⟩
  rw [Edit.run_append, hrun]
  rfl

theorem keep (h : TurnsInto cs ds n) (c : Char) : TurnsInto (c :: cs) (c :: ds) n := by
  obtain ⟨script, rfl, hrun⟩ := h
  refine ⟨script.map .further, List.length_map _, ?_⟩
  rw [Edit.run_map_further, hrun]
  rfl

theorem replace (h : TurnsInto cs ds n) (c d : Char) :
    TurnsInto (c :: cs) (d :: ds) (n + 1) := by
  obtain ⟨script, rfl, hrun⟩ := h.keep d
  exact ⟨.replace 0 d :: script, rfl, hrun⟩

end TurnsInto

/-- Some script takes no more edits than the texts are apart. -/
theorem turnsInto_apart (cs ds : List Char) : TurnsInto cs ds (apart cs ds) := by
  -- as the table was filled: the cheapest of the three neighbours tells what comes first
  induction cs generalizing ds with
  | nil =>
      induction ds with
      | nil => exact .refl []
      | cons d ds ih =>
          rw [apart_nil] at ih ⊢
          exact ih.add d
  | cons c cs ih =>
      induction ds with
      | nil =>
          have hrest := ih []
          rw [apart_nil_right] at hrest ⊢
          exact hrest.drop c
      | cons d ds ihd =>
          rw [apart_cons_cons]
          rcases min_choice (apart cs (d :: ds) + 1)
            (min (apart (c :: cs) ds + 1) (apart cs ds + if c = d then 0 else 1)) with hmin | hmin
          · rw [hmin]
            exact (ih (d :: ds)).drop c
          · rw [hmin]
            rcases min_choice (apart (c :: cs) ds + 1)
              (apart cs ds + if c = d then 0 else 1) with hmin | hmin
            · rw [hmin]
              exact ihd.add d
            · rw [hmin]
              by_cases hcd : c = d
              · subst hcd
                rw [if_pos rfl]
                exact (ih ds).keep c
              · rw [if_neg hcd]
                exact (ih ds).replace c d

/-- The distance of two texts is the least number of edits that turn the one into the other: some
script has that many, and none has fewer. -/
theorem distance_isLeast (s t : String) :
    IsLeast {n | ∃ script : List Edit,
      script.length = n ∧ Edit.run script s.toList = some t.toList} (distance s t) := by
  refine ⟨turnsInto_apart s.toList t.toList, ?_⟩
  rintro n ⟨script, rfl, hrun⟩
  exact apart_le_length hrun

example :
    Edit.run [.replace 0 's', .replace 4 'i', .add 6 'g'] "kitten".toList =
      some "sitting".toList ∧ distance "kitten" "sitting" = 3 := by
  decide +kernel

end Dialogue.Text
