import Dialogue.Proofs.Json.Token

/-! The text of a value reads back as the value: its document has no fault in it, and nothing of the
text is left. The numbers in the value have to be integers of 64 bits. -/

namespace Dialogue

namespace Json

mutual

def numbers : Json → List Number
  | null | bool _ | string _ => []
  | number n => [n]
  | array items => itemNumbers items
  | object members => memberNumbers members

def itemNumbers : List Json → List Number
  | [] => []
  | item :: rest => numbers item ++ itemNumbers rest

def memberNumbers : List (String × Json) → List Number
  | [] => []
  | (_, value) :: rest => numbers value ++ memberNumbers rest

end

theorem itemNumbers_map {α : Type} {encode : α → Json} {numbers : α → List Number}
    (hnumbers : ∀ a, (encode a).numbers = numbers a) (as : List α) :
    itemNumbers (as.map encode) = as.flatMap numbers := by
  induction as with
  | nil => rfl
  | cons a rest ih => rw [List.map_cons, itemNumbers, hnumbers, ih, List.flatMap_cons]

theorem memberNumbers_map {α : Type} {encode : α → Json} {numbers : α → List Number}
    (hnumbers : ∀ a, (encode a).numbers = numbers a) (entries : List (String × α)) :
    memberNumbers (entries.map fun e => (e.1, encode e.2)) =
      entries.flatMap fun e => numbers e.2 := by
  induction entries with
  | nil => rfl
  | cons e rest ih => rw [List.map_cons, memberNumbers, hnumbers, ih, List.flatMap_cons]

end Json

namespace Document

/-- Text in which a value or a member begins at once: it starts with neither a blank nor the end of
a container. -/
def Begins (cs : List Char) : Prop :=
  ∃ c rest, cs = c :: rest ∧ skipBlanks cs = cs ∧ c ≠ ']' ∧ c ≠ '\x7d'

theorem begins_cons {c : Char} (rest : List Char)
    (hc : c = '"' ∨ c = '[' ∨ c = '\x7b' ∨ c = 'n' ∨ c = 't' ∨ c = 'f') :
    Begins (c :: rest) := by
  refine ⟨c, rest, rfl, ?_⟩
  rcases hc with rfl | rfl | rfl | rfl | rfl | rfl <;> exact ⟨rfl, by decide, by decide⟩

theorem ne_of_number {c : Char} (hc : c = '-' ∨ Decimal.isDigit c = true) {d : Char}
    (hminus : d ≠ '-') (hdigit : Decimal.isDigit d = false) : c ≠ d := by
  rintro rfl
  rcases hc with hc | hc
  · exact hminus hc
  · exact Bool.false_ne_true (hdigit.symm.trans hc)

theorem begins_cons_of_number {c : Char} (rest : List Char)
    (hc : c = '-' ∨ Decimal.isDigit c = true) : Begins (c :: rest) := by
  have hblank : ¬ (c = ' ' ∨ c = '\n' ∨ c = '\t' ∨ c = '\r') := by
    rintro (h | h | h | h)
    all_goals exact ne_of_number hc (by decide) (by decide) h
  refine ⟨c, rest, rfl, List.dropWhile_cons_of_neg (by simpa using hblank), ?_, ?_⟩
  all_goals exact ne_of_number hc (by decide) (by decide)

theorem begins_chars {j : Json} (hj : ∀ n ∈ j.numbers, n.FitsWord) (rest : List Char) :
    Begins (j.chars ++ rest) := by
  cases j with
  | null | string _ | array _ | object _ => exact begins_cons _ (by decide)
  | bool b => cases b <;> exact begins_cons _ (by decide)
  | number n =>
    obtain ⟨c, cs, hchars, hc⟩ := Number.chars_eq_cons (hj n (by simp [Json.numbers]))
    rw [Json.chars, hchars]
    exact begins_cons_of_number _ hc

theorem length_chars_pos {j : Json} (hj : ∀ n ∈ j.numbers, n.FitsWord) : 0 < j.chars.length := by
  obtain ⟨c, rest, h, -⟩ := begins_chars hj []
  rw [List.append_nil] at h
  simp [h]

theorem begins_itemChars {item : Json} (hitem : ∀ n ∈ item.numbers, n.FitsWord)
    (items : List Json) (rest : List Char) :
    Begins (Json.itemChars (item :: items) ++ rest) := by
  cases items with
  | nil => exact begins_chars hitem rest
  | cons next items =>
    rw [Json.itemChars, List.append_assoc]
    · exact begins_chars hitem _
    · nofun

theorem begins_memberChars (k : String) (value : Json) (members : List (String × Json))
    (rest : List Char) : Begins (Json.memberChars ((k, value) :: members) ++ rest) := by
  cases members <;> exact begins_cons _ (by decide)

/-! ### One step of the reader -/

section Steps

variable {cs rest : List Char} {fuel : Nat}

theorem turn_closed {close : Char} (hclose : close = ']' ∨ close = '\x7d') :
    turn close (close :: rest) = .closed rest := by
  rcases hclose with rfl | rfl <;> rfl

theorem turn_comma {close : Char} (hclose : close = ']' ∨ close = '\x7d') (hcs : Begins cs) :
    turn close (',' :: cs) = .more cs := by
  obtain ⟨c, rest, rfl, hblank, harray, hobject⟩ := hcs
  have hcomma : skipBlanks (',' :: c :: rest) = ',' :: c :: rest := rfl
  rcases hclose with rfl | rfl <;> simp [turn, hcomma, hblank, harray, hobject]

theorem scan_string (s : String) (rest : List Char) :
    scan (fuel + 1) (Json.stringChars s ++ rest) = (string (.ok s), rest) := by
  obtain ⟨cs, hcs, hread⟩ := scanString_stringChars s rest
  have hquote : skipBlanks ('"' :: cs) = '"' :: cs := rfl
  rw [hcs, scan, hquote]
  simp [hread]

theorem scan_number {n : Number} (hn : n.FitsWord) (hrest : FollowsValue rest) :
    scan (fuel + 1) (n.chars ++ rest) = (number (.ok n), rest) := by
  obtain ⟨c, cs, hchars, hc⟩ := Number.chars_eq_cons hn
  obtain ⟨_, _, -, hblank, -⟩ := begins_cons_of_number (cs ++ rest) hc
  have hread := Number.scan_chars hn hrest
  rw [hchars, List.cons_append] at hread ⊢
  have hquote : c ≠ '"' := ne_of_number hc (by decide) (by decide)
  have harray : c ≠ '[' := ne_of_number hc (by decide) (by decide)
  have hobject : c ≠ '\x7b' := ne_of_number hc (by decide) (by decide)
  rw [scan, hblank]
  simp only [hquote, harray, hobject, hc, if_true, if_false, hread]

theorem scan_array (hcs : Begins cs) :
    scan (fuel + 1) ('[' :: cs) =
      (array (scanItems fuel cs).1 (scanItems fuel cs).2.1, (scanItems fuel cs).2.2) := by
  obtain ⟨c, rest, rfl, hblank, hclose, -⟩ := hcs
  have hopen : skipBlanks ('[' :: c :: rest) = '[' :: c :: rest := rfl
  rw [scan, hopen]
  simp only [Char.reduceEq, if_true, if_false, hblank]
  split
  · next h => cases h; exact absurd rfl hclose
  · next h => cases h
  · rfl

theorem scan_object (hcs : Begins cs) :
    scan (fuel + 1) ('\x7b' :: cs) =
      (object (scanMembers fuel cs).1 (scanMembers fuel cs).2.1, (scanMembers fuel cs).2.2) := by
  obtain ⟨c, rest, rfl, hblank, -, hclose⟩ := hcs
  have hopen : skipBlanks ('\x7b' :: c :: rest) = '\x7b' :: c :: rest := rfl
  rw [scan, hopen]
  simp only [Char.reduceEq, if_true, if_false, hblank]
  split
  · next h => cases h; exact absurd rfl hclose
  · next h => cases h
  · rfl

variable {d : Document}

theorem scanItems_last (hd : d.isBlocked = false) (hscan : scan fuel cs = (d, ']' :: rest)) :
    scanItems (fuel + 1) cs = ([d], none, rest) := by
  simp only [scanItems, hscan, hd, Bool.false_eq_true, if_false, turn_closed (.inl rfl)]

theorem scanItems_more {next : List Char} (hd : d.isBlocked = false) (hnext : Begins next)
    (hscan : scan fuel cs = (d, ',' :: next)) {items : List Document}
    (hitems : scanItems fuel next = (items, none, rest)) :
    scanItems (fuel + 1) cs = (d :: items, none, rest) := by
  simp only [scanItems, hscan, hd, Bool.false_eq_true, if_false, turn_comma (.inl rfl) hnext,
    hitems]

theorem scanMembers_last (k : String) (hd : d.isBlocked = false)
    (hscan : scan fuel cs = (d, '\x7d' :: rest)) :
    scanMembers (fuel + 1) (Json.stringChars k ++ ':' :: cs) = ([(.ok k, d)], none, rest) := by
  obtain ⟨name, hname, hread⟩ := scanString_stringChars k (':' :: cs)
  have hcolon : skipBlanks (':' :: cs) = ':' :: cs := rfl
  simp only [hname, scanMembers, hread, hcolon, hscan, hd, Bool.false_eq_true, if_false,
    turn_closed (.inr rfl)]

theorem scanMembers_more {next : List Char} (k : String) (hd : d.isBlocked = false)
    (hnext : Begins next) (hscan : scan fuel cs = (d, ',' :: next))
    {members : List (Token String × Document)}
    (hmembers : scanMembers fuel next = (members, none, rest)) :
    scanMembers (fuel + 1) (Json.stringChars k ++ ':' :: cs) =
      ((.ok k, d) :: members, none, rest) := by
  obtain ⟨name, hname, hread⟩ := scanString_stringChars k (':' :: cs)
  have hcolon : skipBlanks (':' :: cs) = ':' :: cs := rfl
  simp only [hname, scanMembers, hread, hcolon, hscan, hd, Bool.false_eq_true, if_false,
    turn_comma (.inr rfl) hnext, hmembers]

end Steps

theorem isBlocked_ofJson (j : Json) : (ofJson j).isBlocked = false := by
  cases j <;> rfl

/-! ### Whole values -/

-- The induction is on the value. Every character allows two calls of the reader, so that a bracket
-- pays for the call that reads the items behind it and for the call that reads the first of them.

mutual

/-- A value is read back from its text, and what follows it is left. -/
theorem scan_chars : (j : Json) → (∀ n ∈ j.numbers, n.FitsWord) → (fuel : Nat) →
    (rest : List Char) → 2 * j.chars.length ≤ fuel → FollowsValue rest →
      scan fuel (j.chars ++ rest) = (ofJson j, rest)
  | j, hj, 0, _, hfuel, _ => by
    have := length_chars_pos hj
    omega
  | .null, _, _ + 1, _, _, _ => rfl
  | .bool true, _, _ + 1, _, _, _ => rfl
  | .bool false, _, _ + 1, _, _, _ => rfl
  | .number _, hj, _ + 1, _, _, hrest => scan_number (hj _ List.mem_cons_self) hrest
  | .string s, _, _ + 1, rest, _, _ => scan_string s rest
  | .array [], _, _ + 1, _, _, _ => rfl
  | .object [], _, _ + 1, _, _, _ => rfl
  | .array (item :: items), hj, fuel + 1, rest, hfuel, _ => by
    have hitem := (List.forall_mem_append.mp hj).1
    have htext : (Json.array (item :: items)).chars ++ rest =
        '[' :: (Json.itemChars (item :: items) ++ ']' :: rest) := by simp [Json.chars]
    have hread := scanItems_itemChars item items hj fuel rest (by
      simp only [Json.chars, List.length_cons, List.length_append] at hfuel
      omega)
    rw [htext, scan_array (begins_itemChars hitem items _), hread, ofJson]
  | .object ((k, value) :: members), hj, fuel + 1, rest, hfuel, _ => by
    have htext : (Json.object ((k, value) :: members)).chars ++ rest =
        '\x7b' :: (Json.memberChars ((k, value) :: members) ++ '\x7d' :: rest) := by
      simp [Json.chars]
    have hread := scanMembers_memberChars k value members hj fuel rest (by
      simp only [Json.chars, List.length_cons, List.length_append] at hfuel
      omega)
    rw [htext, scan_object (begins_memberChars k value members _), hread, ofJson]

theorem scanItems_itemChars : (item : Json) → (items : List Json) →
    (∀ n ∈ Json.itemNumbers (item :: items), n.FitsWord) → (fuel : Nat) → (rest : List Char) →
      2 * (Json.itemChars (item :: items)).length + 1 ≤ fuel →
        scanItems fuel (Json.itemChars (item :: items) ++ ']' :: rest) =
          (ofItems (item :: items), none, rest)
  | item, [], hj, fuel + 1, rest, hfuel => by
    have hitem := (List.forall_mem_append.mp hj).1
    have hread := scan_chars item hitem fuel (']' :: rest) (by
      simp only [Json.itemChars] at hfuel
      omega) (followsValue_cons rest (by decide))
    exact scanItems_last (isBlocked_ofJson item) hread
  | item, next :: items, hj, fuel + 1, rest, hfuel => by
    obtain ⟨hitem, hitems⟩ := List.forall_mem_append.mp hj
    have hnext := (List.forall_mem_append.mp hitems).1
    have htext : Json.itemChars (item :: next :: items) ++ ']' :: rest =
        item.chars ++ ',' :: (Json.itemChars (next :: items) ++ ']' :: rest) := by
      simp [Json.itemChars]
    have hlength : (Json.itemChars (item :: next :: items)).length =
        item.chars.length + (Json.itemChars (next :: items)).length + 1 := by
      simp [Json.itemChars, Nat.add_assoc]
    have hread := scan_chars item hitem fuel
      (',' :: (Json.itemChars (next :: items) ++ ']' :: rest)) (by omega)
      (followsValue_cons _ (by decide))
    have hrest := scanItems_itemChars next items hitems fuel rest (by omega)
    rw [htext]
    exact scanItems_more (isBlocked_ofJson item) (begins_itemChars hnext items _) hread hrest

theorem scanMembers_memberChars : (k : String) → (value : Json) →
    (members : List (String × Json)) →
    (∀ n ∈ Json.memberNumbers ((k, value) :: members), n.FitsWord) → (fuel : Nat) →
      (rest : List Char) → 2 * (Json.memberChars ((k, value) :: members)).length + 1 ≤ fuel →
        scanMembers fuel (Json.memberChars ((k, value) :: members) ++ '\x7d' :: rest) =
          (ofMembers ((k, value) :: members), none, rest)
  | k, value, [], hj, fuel + 1, rest, hfuel => by
    have hvalue := (List.forall_mem_append.mp hj).1
    have htext : Json.memberChars [(k, value)] ++ '\x7d' :: rest =
        Json.stringChars k ++ ':' :: (value.chars ++ '\x7d' :: rest) := by
      simp [Json.memberChars]
    have hread := scan_chars value hvalue fuel ('\x7d' :: rest) (by
      simp only [Json.memberChars, List.length_append, List.length_cons] at hfuel
      omega) (followsValue_cons rest (by decide))
    rw [htext]
    exact scanMembers_last k (isBlocked_ofJson value) hread
  | k, value, (l, next) :: members, hj, fuel + 1, rest, hfuel => by
    obtain ⟨hvalue, hmembers⟩ := List.forall_mem_append.mp hj
    have htext : Json.memberChars ((k, value) :: (l, next) :: members) ++ '\x7d' :: rest =
        Json.stringChars k ++ ':' :: (value.chars ++
          ',' :: (Json.memberChars ((l, next) :: members) ++ '\x7d' :: rest)) := by
      simp [Json.memberChars]
    have hlength : (Json.memberChars ((k, value) :: (l, next) :: members)).length =
        (Json.stringChars k).length + value.chars.length +
          (Json.memberChars ((l, next) :: members)).length + 2 := by
      simp only [Json.memberChars, List.length_append, List.length_cons]
      omega
    have hread := scan_chars value hvalue fuel
      (',' :: (Json.memberChars ((l, next) :: members) ++ '\x7d' :: rest)) (by omega)
      (followsValue_cons _ (by decide))
    have hrest := scanMembers_memberChars l next members hmembers fuel rest (by omega)
    rw [htext]
    exact scanMembers_more k (isBlocked_ofJson value) (begins_memberChars l next members _) hread
      hrest

end

/-- The text of a value is the text of a document without faults, and nothing else. -/
theorem ofText_text {j : Json} (hj : ∀ n ∈ j.numbers, n.FitsWord) :
    ofText j.text = ⟨ofJson j, false⟩ := by
  have hread := scan_chars j hj (2 * j.chars.length + 2) [] (by omega) followsValue_nil
  rw [List.append_nil] at hread
  rw [ofText, Json.text, String.toList_ofList, ofChars, hread]
  rfl

end Document

end Dialogue
