import Dialogue.Json.Record

/-! Unions: values of several shapes that a tag tells apart. The tag stands among the fields, or
beside the data. -/

namespace Dialogue

/-- One alternative of a tagged union: the tag's value, the alternative's title, and its fields. -/
structure Variant (α : Type) where
  tag : String
  title : String
  shape : Shape α

/-- A union whose members bear a tag among their fields. -/
structure Union (α : Type) where
  name : String
  key : String
  variants : List (Variant α)

namespace Union

variable {α : Type}

/-- The alternative that a tag names. Put aside, a tag may also be its number. -/
def readTag (u : Union α) : Decoder (Variant α) := fun h d =>
  match h, d with
  | .aside, .number (.ok (.int i)) =>
    if i < 0 then d.reject "variant identifier"
    else
      match u.variants[i.toNat]? with
      | some v => .ok v
      | none =>
        let count := u.variants.length
        .error (.mismatch (.wrongValue (.number (.int i)) s!"variant index 0 <= i < {count}"))
  | h, d => Decoder.name (u.variants.map fun v => (v.tag, v)) h d

/-- Looks for the tag among members and puts the others aside, which takes reading them. -/
def splitTag (u : Union α) (h : Holding) (tag : Option (Variant α)) :
    Members → Except Fault (Option (Variant α) × Members)
  | [] => .ok (tag, [])
  | (k, value) :: rest => do
    let name ← Document.readToken k
    if name = u.key then
      if tag.isSome then .error (.mismatch (.duplicateField u.key))
      else
        let v ← u.readTag h value
        u.splitTag h (some v) rest
    else
      let _ ← value.toJson h
      let (tag, others) ← u.splitTag h tag rest
      .ok (tag, (k, value) :: others)

/-- The decoder of a tagged union. -/
def decoder (u : Union α) : Decoder α := fun h d =>
  match d with
  | .object members damage => do
    let h ← h.enter
    let (tag, others) ← u.splitTag h none members
    Document.readEnd damage
    match tag with
    | none => .error (.mismatch (.missingField u.key))
    | some v => v.shape.fromMembers .aside others none
  | .array items damage => do
    let h ← h.enter
    match items with
    | [] => do
      Document.readEnd damage
      .error (.mismatch (.missingField u.key))
    | item :: rest => do
      let v ← u.readTag h item
      let _ ← Document.toItems h rest
      Document.readEnd damage
      let name := u.name
      let title := v.title
      v.shape.fromItems s!"struct variant {name}::{title}" .aside rest none
  | d => let name := u.name; d.reject s!"internally tagged enum {name}"

end Union

/-- A union whose members bear a tag in one field and their data in another. -/
structure PairedUnion (α : Type) where
  name : String
  key : String
  dataKey : String
  variants : List (String × Decoder α)

namespace PairedUnion

variable {α : Type}

/-- The next member under one of the two keys, and the members behind it; others are passed
over. -/
def seek (u : PairedUnion α) (damage : Option Damage) :
    Members → Except Fault (Option (String × Document × Members))
  | [] => do
    Document.readEnd damage
    .ok none
  | (k, value) :: rest => do
    let name ← Document.readToken k
    if name = u.key ∨ name = u.dataKey then .ok (some (name, value, rest))
    else
      value.skip
      u.seek damage rest

/-- Refuses a second member under one of the two keys. -/
def seekEnd (u : PairedUnion α) (damage : Option Damage) (members : Members) :
    Except Fault Unit := do
  match ← u.seek damage members with
  | some (name, _, _) => .error (.mismatch (.duplicateField name))
  | none => .ok ()

/-- Reads the union from members. Data that stands before its tag is put aside. -/
def fromMembers (u : PairedUnion α) (h : Holding) (damage : Option Damage) (members : Members) :
    Except Fault α := do
  match ← u.seek damage members with
  | none => .error (.mismatch (.missingField u.key))
  | some (first, value, rest) =>
    if first = u.key then
      let decode ← Decoder.word u.variants h value
      match ← u.seek damage rest with
      | none => .error (.mismatch (.missingField u.dataKey))
      | some (second, data, rest) =>
        if second = u.key then .error (.mismatch (.duplicateField u.key))
        let a ← decode h data
        u.seekEnd damage rest
        .ok a
    else
      let _ ← value.toJson h
      match ← u.seek damage rest with
      | none => .error (.mismatch (.missingField u.key))
      | some (second, tag, rest) =>
        if second = u.dataKey then .error (.mismatch (.duplicateField u.dataKey))
        let decode ← Decoder.word u.variants h tag
        let a ← decode .aside value
        u.seekEnd damage rest
        .ok a

/-- The union as a tag and its data. Here the tag can only be a string. -/
def fromItems (u : PairedUnion α) (h : Holding) (items : List Document) (damage : Option Damage) :
    Except Fault α := do
  let name := u.name
  let what := s!"adjacently tagged enum {name}"
  match items with
  | [] => do
    Document.readEnd damage
    .error (.mismatch (.wrongLength 0 what))
  | tag :: rest => do
    let decode ← Decoder.name u.variants h tag
    match rest with
    | [] => do
      Document.readEnd damage
      .error (.mismatch (.wrongLength 1 what))
    | data :: rest => do
      let a ← decode h data
      Shape.endItems h 2 items.length rest damage
      .ok a

/-- The decoder of a union of tag and data. -/
def decoder (u : PairedUnion α) : Decoder α := fun h d =>
  match d with
  | .object members damage => do
    let h ← h.enter
    u.fromMembers h damage members
  | .array items damage => do
    let h ← h.enter
    u.fromItems h items damage
  | d => let name := u.name; d.reject s!"adjacently tagged enum {name}"

end PairedUnion

end Dialogue
