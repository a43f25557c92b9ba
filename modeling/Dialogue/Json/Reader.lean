import Dialogue.Json.Number

/-! From text to a document. Reading never fails: where the text stops making sense, the document
says so at that place and ends. -/

namespace Dialogue

attribute [local instance(2000)] Zero.ofOfNat0

namespace Document

/-- Drops the blanks that may stand between tokens. -/
def skipBlanks (cs : List Char) : List Char :=
  cs.dropWhile fun c => c = ' ' ∨ c = '\n' ∨ c = '\t' ∨ c = '\r'

/-- The value of a hexadecimal digit. -/
def hexValue? (c : Char) : Option Nat :=
  if '0' ≤ c ∧ c ≤ '9' then some (c.toNat - '0'.toNat)
  else if 'a' ≤ c ∧ c ≤ 'f' then some (c.toNat - 'a'.toNat + 10)
  else if 'A' ≤ c ∧ c ≤ 'F' then some (c.toNat - 'A'.toNat + 10)
  else none

/-- The value of four hexadecimal digits. -/
def hex4? (a b c d : Char) : Option Nat := do
  let a ← hexValue? a
  let b ← hexValue? b
  let c ← hexValue? c
  let d ← hexValue? d
  some (((a * 16 + b) * 16 + c) * 16 + d)

/-- The character that a backslash and a letter stand for. -/
def escaped? (c : Char) : Option Char :=
  if c = '"' ∨ c = '\\' ∨ c = '/' then some c
  else if c = 'b' then some '\x08'
  else if c = 'f' then some '\x0c'
  else if c = 'n' then some '\n'
  else if c = 'r' then some '\r'
  else if c = 't' then some '\t'
  else none

/-- The start of a string: its characters, last first, and the first half of a surrogate pair that
waits for its second. A half without its partner makes the string unreadable. -/
structure Partial where
  chars : Except Fault (List Char)
  half : Option Nat

namespace Partial

def empty : Partial := ⟨.ok [], none⟩

/-- The characters so far, when no second half follows. -/
def settled (p : Partial) : Except Fault (List Char) :=
  match p.chars, p.half with
  | .ok _, some _ => .error .malformed
  | chars, _ => chars

def push (p : Partial) (c : Char) : Partial :=
  ⟨p.settled.map (c :: ·), none⟩

/-- The code unit of an escape: a character, or half of one. -/
def pushUnit (p : Partial) (unit : Nat) : Partial :=
  if 0xDC00 ≤ unit ∧ unit ≤ 0xDFFF then
    match p.half with
    | some high =>
      let code := 0x10000 + (high - 0xD800) * 0x400 + (unit - 0xDC00)
      ⟨p.chars.map (Char.ofNat code :: ·), none⟩
    | none => ⟨p.chars.bind fun _ => .error .malformed, none⟩
  else if 0xD800 ≤ unit ∧ unit ≤ 0xDBFF then ⟨p.settled, some unit⟩
  else p.push (Char.ofNat unit)

/-- The string ends here with a quote. -/
def close (p : Partial) : Token String :=
  match p.settled with
  | .ok cs => .ok (String.ofList cs.reverse)
  | .error f => .error ⟨f, none⟩

/-- The string breaks off here. -/
def stop (p : Except Fault (List Char)) (f : Fault) : Token String :=
  match p with
  | .ok _ => .error (.blocking f)
  | .error g => .error ⟨g, some f⟩

end Partial

/-- What a unit escape lacks: four more bytes of text, or digits among them. -/
def unitFault (rest : List Char) : Fault :=
  if (rest.map Char.utf8Size).sum < 4 then .ended else .malformed

/-- The rest of a string after its opening quote, and the text after the closing one. -/
def scanString (p : Partial) : List Char → Token String × List Char
  | [] => (Partial.stop p.chars .ended, [])
  | c :: rest =>
    if c = '"' then (p.close, rest)
    else if c = '\\' then
      match rest with
      | [] => (Partial.stop p.chars .ended, [])
      | 'u' :: a :: b :: c :: d :: rest =>
        match hex4? a b c d with
        | some unit => scanString (p.pushUnit unit) rest
        | none => (Partial.stop p.chars .malformed, rest)
      | 'u' :: rest => (Partial.stop p.chars (unitFault rest), rest)
      | c :: rest =>
        match escaped? c with
        | some c => scanString (p.push c) rest
        | none => (Partial.stop p.settled .malformed, rest)
    else if c.toNat < 0x20 then (Partial.stop p.settled .malformed, rest)
    else scanString (p.push c) rest

/-- A word of the language, of which the first letter has been read. -/
def scanWord (word : List Char) (d : Document) (cs : List Char) : Document × List Char :=
  match word, cs with
  | [], cs => (d, cs)
  | _ :: _, [] => (broken (.blocking .ended), [])
  | w :: word, c :: cs =>
    if w = c then scanWord word d cs else (broken (.blocking .malformed), c :: cs)

/-- What stands where a container goes on or ends: nothing, a comma, its end, or something else. -/
inductive Turn where
  | ended
  | more (rest : List Char)
  | closed (rest : List Char)
  | other

/-- The turn after a value in a container that `close` ends. A comma is followed by something. -/
def turn (close : Char) (cs : List Char) : Turn :=
  match skipBlanks cs with
  | [] => .ended
  | c :: rest =>
    if c = close then .closed rest
    else if c = ',' then
      match skipBlanks rest with
      | [] => .more []
      | d :: rest => if d = close then .other else .more (d :: rest)
    else .other

mutual

/-- The value at the start of a text, and the text after it. -/
def scan : Nat → List Char → Document × List Char
  | 0, cs => (missing, cs)
  | fuel + 1, cs =>
    match skipBlanks cs with
    | [] => (missing, [])
    | c :: rest =>
      if c = '"' then
        let (t, rest) := scanString .empty rest
        (string t, rest)
      else if c = '[' then
        match skipBlanks rest with
        | ']' :: rest => (array [] none, rest)
        | [] => (array [] (some (.blocking .ended)), [])
        | rest =>
          let (items, damage, rest) := scanItems fuel rest
          (array items damage, rest)
      else if c = '\x7b' then
        match skipBlanks rest with
        | '\x7d' :: rest => (object [] none, rest)
        | [] => (object [] (some (.blocking .ended)), [])
        | rest =>
          let (members, damage, rest) := scanMembers fuel rest
          (object members damage, rest)
      else if c = '-' ∨ Decimal.isDigit c then
        let (t, rest) := Number.scan (c :: rest)
        (number t, rest)
      else if c = 'n' then scanWord ['u', 'l', 'l'] null rest
      else if c = 't' then scanWord ['r', 'u', 'e'] (bool true) rest
      else if c = 'f' then scanWord ['a', 'l', 's', 'e'] (bool false) rest
      else (broken (.blocking .malformed), c :: rest)

/-- The items of an array from one that is due, and the text after its end. -/
def scanItems : Nat → List Char → List Document × Option Damage × List Char
  | 0, cs => ([], none, cs)
  | fuel + 1, cs =>
    let (item, rest) := scan fuel cs
    if item.isBlocked then ([item], none, rest)
    else
      match turn ']' rest with
      | .ended => ([item], some (.blocking .ended), [])
      | .closed rest => ([item], none, rest)
      | .other => ([item], some (.blocking .malformed), rest)
      | .more rest =>
        let (items, damage, rest) := scanItems fuel rest
        (item :: items, damage, rest)

/-- The members of an object from one that is due, and the text after the object's end. -/
def scanMembers : Nat → List Char →
    List (Token String × Document) × Option Damage × List Char
  | 0, cs => ([], none, cs)
  | fuel + 1, cs =>
    match cs with
    | [] => ([(.error (.blocking .ended), missing)], none, [])
    | '"' :: rest =>
      let (name, rest) := scanString .empty rest
      match skipBlanks rest with
      | [] => ([(name, missing)], none, [])
      | ':' :: rest =>
        let (value, rest) := scan fuel rest
        if value.isBlocked then ([(name, value)], none, rest)
        else
          match turn '\x7d' rest with
          | .ended => ([(name, value)], some (.blocking .ended), [])
          | .closed rest => ([(name, value)], none, rest)
          | .other => ([(name, value)], some (.blocking .malformed), rest)
          | .more rest =>
            let (members, damage, rest) := scanMembers fuel rest
            ((name, value) :: members, damage, rest)
      | rest => ([(name, broken (.blocking .malformed))], none, rest)
    | _ => ([(.error (.blocking .malformed), missing)], none, [])

end

/-- A whole text: its document, and whether anything but blanks follows it. -/
structure Source where
  root : Document
  trailing : Bool
  deriving Inhabited

/-- Reads a text. Each container costs at most two calls for its first character, so the calls
allowed suffice. -/
def ofChars (cs : List Char) : Source :=
  let (root, rest) := scan (2 * cs.length + 2) cs
  ⟨root, !(skipBlanks rest).isEmpty⟩

def ofText (s : String) : Source :=
  ofChars s.toList

end Document

end Dialogue
