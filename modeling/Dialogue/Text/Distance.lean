/-! The edit distance of two texts, found row by row: a row holds the distances of one end of the
first text to all ends of the second, the longest first. -/

namespace Dialogue.Text

/-- The distances of nothing to the ends of a text. -/
def firstRow : List Char → List Nat
  | [] => [0]
  | _ :: rest => (rest.length + 1) :: firstRow rest

/-- The row of a text that is `c` longer, from the row before it. A character is dropped, added,
or replaced unless it is the same. -/
def nextRow (c : Char) : List Char → List Nat → List Nat
  | [], row => [row.headD 0 + 1]
  | d :: rest, row =>
    let shorter := nextRow c rest row.tail
    let replaced := row.tail.headD 0 + if c = d then 0 else 1
    min (row.headD 0 + 1) (min (shorter.headD 0 + 1) replaced) :: shorter

/-- The rows of all of `cs`, down to the last. -/
def lastRow (cs ds : List Char) : List Nat :=
  cs.foldr (fun c row => nextRow c ds row) (firstRow ds)

/-- The least number of characters added, dropped or replaced that turns one text into the
other. -/
def distance (s t : String) : Nat :=
  (lastRow s.toList t.toList).headD 0

/-- Whether a text occurs within another. -/
def occursIn (cs : List Char) : List Char → Bool
  | [] => cs.isEmpty
  | d :: rest => cs.isPrefixOf (d :: rest) || occursIn cs rest

theorem length_nextRow (c : Char) (ds : List Char) (row : List Nat) :
    (nextRow c ds row).length = ds.length + 1 := by
  induction ds generalizing row with
  | nil => rfl
  | cons d rest ih => simp [nextRow, ih]

theorem length_lastRow (cs ds : List Char) : (lastRow cs ds).length = ds.length + 1 := by
  cases cs with
  | nil =>
    show (firstRow ds).length = _
    induction ds with
    | nil => rfl
    | cons d rest ih => simp [firstRow, ih]
  | cons c rest => exact length_nextRow c ds _

theorem occursIn_iff (cs ds : List Char) : occursIn cs ds = true ↔ cs <:+: ds := by
  induction ds with
  | nil => simp [occursIn]
  | cons d rest ih => simp [occursIn, ih, List.infix_cons_iff]

end Dialogue.Text
