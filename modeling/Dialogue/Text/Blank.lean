/-! Blank characters, and what is left of a text without them: its trimmed form and its words. -/

namespace Dialogue.Text

/-- The Unicode property White_Space. -/
def isBlank (c : Char) : Bool :=
  let n := c.toNat
  (0x9 ≤ n && n ≤ 0xD) || n == 0x20 || n == 0x85 || n == 0xA0 || n == 0x1680 ||
    (0x2000 ≤ n && n ≤ 0x200A) || n == 0x2028 || n == 0x2029 || n == 0x202F || n == 0x205F ||
    n == 0x3000

/-- The characters left once blanks are dropped from both ends. -/
def trimChars (cs : List Char) : List Char :=
  ((cs.dropWhile isBlank).reverse.dropWhile isBlank).reverse

/-- The text without the blanks at its two ends. -/
def trim (s : String) : String :=
  String.ofList (trimChars s.toList)

/-- The maximal runs of characters that are not blank, in order. -/
def wordChars : List Char → List (List Char)
  | [] => []
  | [c] => if isBlank c then [] else [[c]]
  | c :: d :: rest =>
    if isBlank c then wordChars (d :: rest)
    else if isBlank d then [c] :: wordChars (d :: rest)
    else
      match wordChars (d :: rest) with
      | [] => [[c]]
      | word :: others => (c :: word) :: others

/-- The words of a text. -/
def words (s : String) : List String :=
  (wordChars s.toList).map String.ofList

theorem isBlank_of_isWhitespace {c : Char} (h : c.isWhitespace = true) : isBlank c = true := by
  simp only [Char.isWhitespace, Bool.or_eq_true, decide_eq_true_eq] at h
  rcases h with ((rfl | rfl) | rfl) | rfl <;> decide

theorem wordChars_ne_nil {cs word : List Char} (h : word ∈ wordChars cs) : word ≠ [] := by
  fun_induction wordChars cs with
  | case1 => simp at h
  | case2 c hc => simp at h
  | case3 c hc => simp at h; simp [h]
  | case4 c d rest hc ih => exact ih h
  | case5 c d rest hc hd ih =>
    rcases List.mem_cons.1 h with rfl | h
    · simp
    · exact ih h
  | case6 c d rest hc hd hw ih => simp at h; simp [h]
  | case7 c d rest hc hd first others hw ih =>
    rcases List.mem_cons.1 h with rfl | h
    · simp
    · exact ih (by simp [hw, h])

end Dialogue.Text
