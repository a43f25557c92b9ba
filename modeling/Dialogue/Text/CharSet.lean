/-! Sets of characters given by spans of code points. -/

namespace Dialogue.Text

/-- A set of characters, as the closed spans of code points that it covers. -/
structure CharSet where
  spans : List (Nat × Nat)

namespace CharSet

/-- A character is in the set when some span covers its code point. -/
def contains (s : CharSet) (c : Char) : Bool :=
  s.spans.any fun span => span.1 ≤ c.toNat && c.toNat ≤ span.2

theorem contains_iff {s : CharSet} {c : Char} :
    s.contains c = true ↔ ∃ span ∈ s.spans, span.1 ≤ c.toNat ∧ c.toNat ≤ span.2 := by
  simp [contains]

end CharSet

end Dialogue.Text
