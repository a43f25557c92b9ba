import Dialogue.Json.Union
import Dialogue.Proofs.Json.Scan

/-! When a decoder reads a value back from the document that this was written as. The laws follow
the decoders: a record is read field by field, and a union by its tag and then as the record that
the tag names. -/

namespace Dialogue

namespace Json

mutual

def nesting : Json → Nat
  | null | bool _ | number _ | string _ => 0
  | array items => itemNesting items + 1
  | object members => memberNesting members + 1

def itemNesting : List Json → Nat
  | [] => 0
  | item :: rest => max (nesting item) (itemNesting rest)

def memberNesting : List (String × Json) → Nat
  | [] => 0
  | (_, value) :: rest => max (nesting value) (memberNesting rest)

end

theorem nesting_le_memberNesting {k : String} {j : Json} {members : List (String × Json)}
    (hj : (k, j) ∈ members) : j.nesting ≤ memberNesting members := by
  induction members with
  | nil => cases hj
  | cons member rest ih =>
    rw [memberNesting]
    rcases List.mem_cons.mp hj with rfl | hj
    · exact Nat.le_max_left _ _
    · exact Nat.le_trans (ih hj) (Nat.le_max_right _ _)

theorem memberNesting_map_le {α : Type} {encode : α → Json} {n : Nat}
    (hencode : ∀ a, (encode a).nesting ≤ n) (entries : List (String × α)) :
    memberNesting (entries.map fun e => (e.1, encode e.2)) ≤ n := by
  induction entries with
  | nil => exact Nat.zero_le n
  | cons e rest ih =>
    rw [List.map_cons, memberNesting]
    exact Nat.max_le.mpr ⟨hencode e.2, ih⟩

end Json

namespace Holding

/-- Whether so many containers in one another can still be opened. -/
def Admits : Holding → Nat → Prop
  | text depth, n => n < depth
  | aside, _ | value, _ => True

theorem Admits.mono {h : Holding} {m n : Nat} (hn : h.Admits n) (hm : m ≤ n) : h.Admits m := by
  cases h with
  | text depth => exact Nat.lt_of_le_of_lt hm hn
  | aside | value => trivial

theorem exists_enter {h : Holding} {n : Nat} (hn : h.Admits (n + 1)) :
    ∃ inner, h.enter = .ok inner ∧ inner.Admits n := by
  match h, hn with
  | text 0, hn => exact absurd hn (Nat.not_lt_zero _)
  | text 1, hn => exact absurd (Nat.lt_of_succ_lt_succ hn) (Nat.not_lt_zero _)
  | text (depth + 2), hn => exact ⟨text (depth + 1), rfl, Nat.lt_of_succ_lt_succ hn⟩
  | aside, _ => exact ⟨aside, rfl, trivial⟩
  | value, _ => exact ⟨value, rfl, trivial⟩

end Holding

namespace Document

theorem readToken_ok {α : Type} (a : α) : readToken (.ok a) = .ok a := rfl

theorem ofMembers_eq_map (members : List (String × Json)) :
    ofMembers members = members.map fun m => (.ok m.1, ofJson m.2) := by
  induction members with
  | nil => rfl
  | cons member rest ih => rw [ofMembers, ih, List.map_cons]

theorem exists_of_mem_zipIdx_ofMembers {members : List (String × Json)}
    {m : Token String × Document} {i : Nat} (hm : (m, i) ∈ (ofMembers members).zipIdx) :
    ∃ member ∈ members, (.ok member.1, ofJson member.2) = m := by
  have hmem := List.fst_mem_of_mem_zipIdx hm
  rw [ofMembers_eq_map] at hmem
  exact List.mem_map.mp hmem

mutual

/-- A document without faults can be passed over. -/
theorem skip_ofJson : (j : Json) → (ofJson j).skip = .ok ()
  | .null | .bool _ | .number _ | .string _ => rfl
  | .array items => by
    rw [ofJson, skip, skipItems_ofItems items]
    rfl
  | .object members => by
    rw [ofJson, skip, skipMembers_ofMembers members]
    rfl

theorem skipItems_ofItems : (items : List Json) → skipItems (ofItems items) = .ok ()
  | [] => rfl
  | item :: rest => by
    rw [ofItems, skipItems, skip_ofJson item]
    exact skipItems_ofItems rest

theorem skipMembers_ofMembers : (members : List (String × Json)) →
    skipMembers (ofMembers members) = .ok ()
  | [] => rfl
  | (k, value) :: rest => by
    rw [ofMembers, skipMembers, skip_ofJson value]
    exact skipMembers_ofMembers rest

end

mutual

theorem toJson_ofJson : (j : Json) → (h : Holding) → h.Admits j.nesting →
    (ofJson j).toJson h = .ok j
  | .null, _, _ | .bool _, _, _ | .number _, _, _ | .string _, _, _ => rfl
  | .array items, h, hj => by
    obtain ⟨inner, henter, hinner⟩ := Holding.exists_enter hj
    rw [ofJson, toJson, henter]
    show (toItems inner (ofItems items) >>= _) = _
    rw [toItems_ofItems items inner hinner]
    rfl
  | .object members, h, hj => by
    obtain ⟨inner, henter, hinner⟩ := Holding.exists_enter hj
    rw [ofJson, toJson, henter]
    show (toMembers inner (ofMembers members) >>= _) = _
    rw [toMembers_ofMembers members inner hinner]
    rfl

theorem toItems_ofItems : (items : List Json) → (h : Holding) → h.Admits (Json.itemNesting items) →
    toItems h (ofItems items) = .ok items
  | [], _, _ => rfl
  | item :: rest, h, hitems => by
    rw [ofItems, toItems, toJson_ofJson item h (hitems.mono (Nat.le_max_left _ _))]
    show (toItems h (ofItems rest) >>= _) = _
    rw [toItems_ofItems rest h (hitems.mono (Nat.le_max_right _ _))]
    rfl

theorem toMembers_ofMembers : (members : List (String × Json)) → (h : Holding) →
    h.Admits (Json.memberNesting members) → toMembers h (ofMembers members) = .ok members
  | [], _, _ => rfl
  | (k, value) :: rest, h, hmembers => by
    rw [ofMembers, toMembers]
    show (toJson h (ofJson value) >>= _) = _
    rw [toJson_ofJson value h (hmembers.mono (Nat.le_max_left _ _))]
    show (toMembers h (ofMembers rest) >>= _) = _
    rw [toMembers_ofMembers rest h (hmembers.mono (Nat.le_max_right _ _))]
    rfl

end

end Document

namespace Decoder

variable {α β : Type} {decode : Decoder α} {j : Json} {a : α}

/-- The decoder finds `a` in the document of `j`, in whatever way this is held, if only all its
containers may be opened. -/
def Reads (decode : Decoder α) (j : Json) (a : α) : Prop :=
  ∀ h : Holding, h.Admits j.nesting → decode h (.ofJson j) = .ok a

theorem reads_string (s : String) : Decoder.string.Reads (.string s) s := fun _ _ => rfl

theorem reads_bool (b : Bool) : Decoder.bool.Reads (.bool b) b := fun _ _ => rfl

theorem reads_json (j : Json) : Decoder.json.Reads j j := Document.toJson_ofJson j

theorem reads_nat (expected : String) (n : Nat) : (Decoder.nat expected).Reads (.ofNat n) n := by
  intro h _
  simp [Decoder.nat, Json.ofNat, Document.ofJson]

theorem reads_word {names : List (String × α)} {s : String}
    (hs : names.find? (·.1 == s) = some (s, a)) : (Decoder.word names).Reads (.string s) a := by
  have hpick : Decoder.pick names s = .ok a := by rw [Decoder.pick, hs]
  intro h _
  cases h <;> exact hpick

theorem Reads.map (ha : decode.Reads j a) (f : α → β) :
    Reads (fun h d => f <$> decode h d) j (f a) := by
  intro h hj
  simp only [ha h hj]
  rfl

theorem Reads.option (ha : decode.Reads j a) (hj : j ≠ .null) :
    decode.option.Reads j (some a) := by
  have hsome := ha.map some
  cases j with
  | null => exact absurd rfl hj
  | bool _ | number _ | string _ | array _ | object _ => exact hsome

theorem mapM_ofItems {encode : α → Json} {as : List α} {h : Holding}
    (has : ∀ a ∈ as, decode.Reads (encode a) a)
    (hh : h.Admits (Json.itemNesting (as.map encode))) :
    (Document.ofItems (as.map encode)).mapM (decode h) = .ok as := by
  induction as with
  | nil => rfl
  | cons a rest ih =>
    have hfirst := has a List.mem_cons_self h (hh.mono (Nat.le_max_left _ _))
    have hrest := ih (fun b hb => has b (List.mem_cons_of_mem _ hb))
      (hh.mono (Nat.le_max_right _ _))
    rw [List.map_cons, Document.ofItems, List.mapM_cons, hfirst, hrest]
    rfl

theorem reads_list {encode : α → Json} {as : List α}
    (has : ∀ a ∈ as, decode.Reads (encode a) a) :
    decode.list.Reads (.array (as.map encode)) as := by
  intro h hh
  obtain ⟨inner, henter, hinner⟩ := Holding.exists_enter hh
  simp only [list, Document.ofJson, henter, bind, Except.bind, mapM_ofItems has hinner]
  rfl

theorem mapM_ofMembers {encode : α → Json} {entries : List (String × α)} {h : Holding}
    (hentries : ∀ e ∈ entries, decode.Reads (encode e.2) e.2)
    (hh : h.Admits (Json.memberNesting (entries.map fun e => (e.1, encode e.2)))) :
    (Document.ofMembers (entries.map fun e => (e.1, encode e.2))).mapM
      (fun (k, value) => do
        let k ← Document.readToken k
        let a ← decode h value
        .ok (k, a)) = .ok entries := by
  induction entries with
  | nil => rfl
  | cons e rest ih =>
    have hfirst := hentries e List.mem_cons_self h (hh.mono (Nat.le_max_left _ _))
    have hrest := ih (fun x hx => hentries x (List.mem_cons_of_mem _ hx))
      (hh.mono (Nat.le_max_right _ _))
    rw [List.map_cons, Document.ofMembers, List.mapM_cons, hrest]
    simp only [Document.readToken_ok, bind, Except.bind, hfirst]
    rfl

/-- The members of a map are read one by one, and of equal keys the last counts. -/
theorem reads_keyed {encode : α → Json} {entries : List (String × α)}
    (hentries : ∀ e ∈ entries, decode.Reads (encode e.2) e.2) :
    (keyed decode).Reads (.object (entries.map fun e => (e.1, encode e.2))) (.ofList entries) := by
  intro h hh
  obtain ⟨inner, henter, hinner⟩ := Holding.exists_enter hh
  have hread := mapM_ofMembers hentries hinner
  simp only [keyed, Document.ofJson, henter, bind, Except.bind] at hread ⊢
  rw [hread]
  rfl
/-- What a decoder reads in the document of a value it reads in the text of this value, where the
text nests no deeper than texts may. -/
theorem Reads.ofText (ha : decode.Reads j a) (hnumbers : ∀ n ∈ j.numbers, n.FitsWord)
    (hnesting : j.nesting ≤ 127) : decode.ofText j.text = .ok a := by
  have hread := ha .start (Nat.lt_succ_of_le hnesting)
  simp only [Decoder.ofText, Document.ofText_text hnumbers, hread]
  rfl

end Decoder

namespace Field

variable {α : Type} {f : Field α} {members : List (String × Json)} {a : α}

def among (f : Field α) (members : List (String × Json)) : List (String × Json) :=
  members.filter fun m => f.names.contains m.1

def Reads (f : Field α) (members : List (String × Json)) (a : α) : Prop :=
  ∀ h : Holding, h.Admits (Json.memberNesting members) →
    f.find h (Document.ofMembers members) = .ok a

theorem map_fst_filter_isNamed (f : Field α) (members : List (String × Json)) :
    ((Document.ofMembers members).zipIdx.filter fun m => f.isNamed m.1).map Prod.fst =
      Document.ofMembers (f.among members) := by
  calc ((Document.ofMembers members).zipIdx.filter (f.isNamed ∘ Prod.fst)).map Prod.fst
      = ((Document.ofMembers members).zipIdx.map Prod.fst).filter f.isNamed := List.filter_map.symm
    _ = (Document.ofMembers members).filter f.isNamed := by rw [List.zipIdx_map_fst]
    _ = Document.ofMembers (f.among members) := by
      rw [Document.ofMembers_eq_map, List.filter_map, Document.ofMembers_eq_map]
      rfl

/-- A single member of the field's name gives its value. -/
theorem reads_of_among_eq_singleton {k : String} {j : Json} (hf : f.among members = [(k, j)])
    (ha : f.decode.Reads j a) : f.Reads members a := by
  intro h hh
  have hmem : (k, j) ∈ members := (List.mem_filter.mp (hf ▸ List.mem_cons_self)).1
  have hread := ha h (hh.mono (Json.nesting_le_memberNesting hmem))
  have hfound := map_fst_filter_isNamed f members
  rw [hf] at hfound
  obtain ⟨⟨m, i⟩, hfilter, hm⟩ := List.map_eq_singleton_iff.mp hfound
  cases hm
  simp only [find, hfilter, hread]
  rfl

theorem reads_of_among_eq_nil (hf : f.among members = []) (ha : f.absent = some a) :
    f.Reads members a := by
  intro h _
  have hfound := map_fst_filter_isNamed f members
  rw [hf] at hfound
  have hfilter := List.map_eq_nil_iff.mp hfound
  simp only [find, hfilter, ha]

theorem Reads.orNamed {other : String} (ha : f.Reads members a)
    (hother : ∀ m ∈ members, m.1 ≠ other) : (f.orNamed other).Reads members a := by
  intro h hh
  have hnamed : ∀ m ∈ (Document.ofMembers members).zipIdx,
      (f.orNamed other).isNamed m.1 = f.isNamed m.1 := by
    rintro ⟨m, i⟩ hm
    obtain ⟨member, hmember, rfl⟩ := Document.exists_of_mem_zipIdx_ofMembers hm
    simp [isNamed, names, Field.orNamed, hother member hmember]
  rw [← ha h hh, find, find, List.filter_congr hnamed]
  rfl

section Named

variable {name : String} {decode : Decoder α}

theorem among_eq_filter (hf : f.otherNames = []) :
    f.among members = members.filter (·.1 == f.name) := by
  simp only [among, names, hf, List.contains_cons, List.contains_nil, Bool.or_false]

theorem filter_eq_singleton_of_perm {others : List (String × Json)} {j : Json}
    (hperm : others.Perm members) (hmembers : members.filter (·.1 == name) = [(name, j)]) :
    others.filter (·.1 == name) = [(name, j)] :=
  List.perm_singleton.mp (hmembers ▸ hperm.filter _)

theorem reads_required {j : Json} (hmembers : members.filter (·.1 == name) = [(name, j)])
    (ha : decode.Reads j a) : (Field.required name decode).Reads members a :=
  reads_of_among_eq_singleton ((among_eq_filter rfl).trans hmembers) ha

theorem reads_required_of_perm {others : List (String × Json)} {j : Json}
    (hperm : others.Perm members) (hmembers : members.filter (·.1 == name) = [(name, j)])
    (ha : decode.Reads j a) : (Field.required name decode).Reads others a :=
  reads_required (filter_eq_singleton_of_perm hperm hmembers) ha

theorem reads_defaulted {j : Json} {default : α}
    (hmembers : members.filter (·.1 == name) = [(name, j)]) (ha : decode.Reads j a) :
    (Field.defaulted name decode default).Reads members a :=
  reads_of_among_eq_singleton ((among_eq_filter rfl).trans hmembers) ha

/-- An optional field is read from a member that is written only where there is a value. -/
theorem reads_optional {encode : α → Json} {value : Option α}
    (hmembers : members.filter (·.1 == name) = (value.map fun b => (name, encode b)).toList)
    (hvalue : ∀ b, decode.Reads (encode b) b) (hnull : ∀ b, encode b ≠ .null) :
    (Field.optional name decode).Reads members value := by
  have hamong := (@among_eq_filter _ (Field.optional name decode) _ rfl).trans hmembers
  cases value with
  | none => exact reads_of_among_eq_nil hamong rfl
  | some b => exact reads_of_among_eq_singleton hamong ((hvalue b).option (hnull b))

theorem reads_nullable {encode : α → Json} {value : Option α}
    (hmembers : members.filter (·.1 == name) = [(name, .ofOption encode value)])
    (hvalue : ∀ b, decode.Reads (encode b) b) (hnull : ∀ b, encode b ≠ .null) :
    (Field.nullable name decode).Reads members value := by
  have hamong := (@among_eq_filter _ (Field.nullable name decode) _ rfl).trans hmembers
  refine reads_of_among_eq_singleton hamong ?_
  cases value with
  | none => exact fun _ _ => rfl
  | some b => exact (hvalue b).option (hnull b)

end Named

end Field

theorem Located.forM_eq_ok {α : Type} {l : List α} {f : α → Located Unit}
    (hf : ∀ x ∈ l, f x = .ok ()) : l.forM f = .ok () := by
  induction l with
  | nil => rfl
  | cons x rest ih =>
    have hrest := ih fun y hy => hf y (List.mem_cons_of_mem _ hy)
    rw [List.forM, hf x List.mem_cons_self]
    exact hrest

namespace Shape

variable {α β : Type} {members : List (String × Json)} {a : α}

def Reads (s : Shape α) (members : List (String × Json)) (a : α) : Prop :=
  ∀ h : Holding, h.Admits (Json.memberNesting members) →
    s.ofMembers h (Document.ofMembers members) = .ok a

theorem reads_pure (a : α) : (Shape.pure a).Reads members a := fun _ _ => rfl

theorem Reads.field {s : Shape (α → β)} {g : α → β} (hs : s.Reads members g) {f : Field α}
    (hf : f.Reads members a) : (s.field f).Reads members (g a) := by
  intro h hh
  simp only [Shape.field, hs h hh, hf h hh]
  rfl

theorem passOver_ofMembers (names : List String) (members : List (String × Json)) :
    passOver names (Document.ofMembers members) = .ok () := by
  refine Located.forM_eq_ok fun (m, i) hm => ?_
  obtain ⟨member, -, rfl⟩ := Document.exists_of_mem_zipIdx_ofMembers hm
  simp only [Document.skip_ofJson]
  split <;> rfl

theorem Reads.fromMembers {s : Shape α} (hs : s.Reads members a) {h : Holding}
    (hh : h.Admits (Json.memberNesting members)) :
    s.fromMembers h (Document.ofMembers members) none = .ok a := by
  simp only [Shape.fromMembers, passOver_ofMembers, hs h hh]
  rfl

/-- A record is read from an object of its fields. -/
theorem Reads.decoder {s : Shape α} (hs : s.Reads members a) (what : String) :
    (s.decoder what).Reads (.object members) a := by
  intro h hh
  obtain ⟨inner, henter, hinner⟩ := Holding.exists_enter hh
  simp only [Shape.decoder, Document.ofJson, henter, bind, Except.bind, hs.fromMembers hinner]

end Shape

namespace Union

variable {α : Type} {u : Union α} {v : Variant α} {members : List (String × Json)} {a : α}

/-- Behind the tag all members are put aside, where no second one bears its key. -/
theorem splitTag_ofMembers {h : Holding} (v : Variant α) (hkeys : ∀ m ∈ members, m.1 ≠ u.key)
    (hh : h.Admits (Json.memberNesting members)) :
    u.splitTag h (some v) (Document.ofMembers members) =
      .ok (some v, Document.ofMembers members) := by
  induction members with
  | nil => rfl
  | cons m rest ih =>
    obtain ⟨k, value⟩ := m
    obtain ⟨hk, hrest⟩ := List.forall_mem_cons.mp hkeys
    have hvalue := Document.toJson_ofJson value h (hh.mono (Nat.le_max_left _ _))
    have hothers := ih hrest (hh.mono (Nat.le_max_right _ _))
    simp only [Document.ofMembers, splitTag, Document.readToken_ok, bind, Except.bind, if_neg hk,
      hvalue, hothers]

theorem readTag_string {tag : String} (hv : u.variants.find? (·.tag == tag) = some v)
    (h : Holding) : u.readTag h (.string (.ok tag)) = .ok v := by
  have hpick : Decoder.pick (u.variants.map fun v => (v.tag, v)) tag = .ok v := by
    simp only [Decoder.pick, List.find?_map, Function.comp_def, hv, Option.map_some]
  cases h <;> exact hpick

/-- The tag is found wherever it stands, and all members around it are put aside. -/
theorem splitTag_around {h : Holding} {tag : String} {before after : List (String × Json)}
    (hv : u.variants.find? (·.tag == tag) = some v) (hbefore : ∀ m ∈ before, m.1 ≠ u.key)
    (hafter : ∀ m ∈ after, m.1 ≠ u.key)
    (hh : h.Admits (Json.memberNesting (before ++ (u.key, .string tag) :: after))) :
    u.splitTag h none (Document.ofMembers (before ++ (u.key, .string tag) :: after)) =
      .ok (some v, Document.ofMembers (before ++ after)) := by
  induction before with
  | nil =>
    have hrest := splitTag_ofMembers v hafter (hh.mono (Nat.le_max_right _ _))
    simp only [List.nil_append, Document.ofMembers, splitTag, Document.readToken_ok, bind,
      Except.bind, if_true, Option.isSome_none, Bool.false_eq_true, if_false, Document.ofJson,
      readTag_string hv, hrest]
  | cons m rest ih =>
    obtain ⟨k, value⟩ := m
    obtain ⟨hk, hrest⟩ := List.forall_mem_cons.mp hbefore
    have hvalue := Document.toJson_ofJson value h (hh.mono (Nat.le_max_left _ _))
    have hothers := ih hrest (hh.mono (Nat.le_max_right _ _))
    simp only [List.cons_append, Document.ofMembers, splitTag, Document.readToken_ok, bind,
      Except.bind, if_neg hk, hvalue, hothers]

/-- A value of a union is read from an object that has the tag somewhere, where its record is read
from the other members. -/
theorem reads_around {tag : String} {before after : List (String × Json)}
    (hv : u.variants.find? (·.tag == tag) = some v) (hbefore : ∀ m ∈ before, m.1 ≠ u.key)
    (hafter : ∀ m ∈ after, m.1 ≠ u.key) (ha : v.shape.Reads (before ++ after) a) :
    u.decoder.Reads (.object (before ++ (u.key, .string tag) :: after)) a := by
  intro h hh
  obtain ⟨inner, henter, hinner⟩ := Holding.exists_enter hh
  have hsplit := splitTag_around hv hbefore hafter hinner
  have hrecord := @Shape.Reads.fromMembers _ _ _ _ ha .aside trivial
  simp only [decoder, Document.ofJson, henter, bind, Except.bind, hsplit, Document.readEnd, hrecord]

theorem reads_object {tag : String} (hv : u.variants.find? (·.tag == tag) = some v)
    (hkeys : ∀ m ∈ members, m.1 ≠ u.key) (ha : v.shape.Reads members a) :
    u.decoder.Reads (.object ((u.key, .string tag) :: members)) a :=
  @reads_around _ u v a tag [] members hv (List.forall_mem_nil _) hkeys ha

/-- The members of an object, the tag among them, may stand in any order if this makes no difference
to the record. -/
theorem reads_of_perm {tag : String} {shuffled : List (String × Json)}
    (hperm : shuffled.Perm ((u.key, .string tag) :: members))
    (hv : u.variants.find? (·.tag == tag) = some v) (hkeys : ∀ m ∈ members, m.1 ≠ u.key)
    (ha : ∀ others : List (String × Json), others.Perm members → v.shape.Reads others a) :
    u.decoder.Reads (.object shuffled) a := by
  obtain ⟨before, after, rfl⟩ := List.append_of_mem (hperm.mem_iff.mpr List.mem_cons_self)
  have hothers : (before ++ after).Perm members :=
    (List.perm_middle.symm.trans hperm).cons_inv
  refine reads_around hv (fun m hm => ?_) (fun m hm => ?_) (ha _ hothers)
  · exact hkeys m (hothers.subset (List.mem_append_left _ hm))
  · exact hkeys m (hothers.subset (List.mem_append_right _ hm))

end Union

end Dialogue
