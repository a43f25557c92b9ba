import Mathlib.Data.List.Nodup
import Dialogue.Variables
import Dialogue.Proofs.Json.Decode

/-! Names as keys. A store finds a variable by the key that it was put under, and a list of its
variables tells only the names that they bear. The two agree just if each variable stands under its
own name. A change never spoils this; a document may, and then until a change replaces what stands
under the wrong key. -/

namespace Dialogue

open Decoder (reads_string reads_keyed)

/-! ### In order of name -/

namespace Variable

variable {v : Variable} {l : List Variable}

theorem place_perm (v : Variable) (l : List Variable) : (v.place l).Perm (v :: l) := by
  induction l with
  | nil => exact .refl _
  | cons w rest ih =>
      rw [place]
      split
      · exact (ih.cons w).trans (.swap v w rest)
      · exact .refl _

theorem foldr_place_perm (l : List Variable) : (l.foldr place []).Perm l := by
  induction l with
  | nil => exact .refl _
  | cons v rest ih => exact (place_perm v _).trans (ih.cons v)

theorem place_of_lt (h : ∀ w ∈ l, v.name < w.name) : v.place l = v :: l := by
  cases l with
  | nil => rfl
  | cons w rest => rw [place, if_neg (String.lt_asymm (h w List.mem_cons_self))]

theorem foldr_place_of_pairwise (h : l.Pairwise fun v w => v.name < w.name) :
    l.foldr place [] = l := by
  induction h with
  | nil => rfl
  | cons hfirst _ ih => rw [List.foldr_cons, ih, place_of_lt hfirst]

theorem reads (v : Variable) : decode.Reads v.toJson v := by
  refine Shape.Reads.decoder
    ((((Shape.reads_pure Variable.mk).field ?_).field ?_).field ?_) _
  · exact Field.reads_required rfl (reads_string v.name)
  · exact Field.reads_required rfl (reads_string v.value)
  · exact Field.reads_required rfl (reads_string v.kind)

end Variable

namespace Variables

variable {vs : Variables} {v : Variable} {name key : String}

theorem get?_eq_some_iff : vs.get? key = some v ↔ (key, v) ∈ vs.bindings.entries :=
  Keyed.get?_eq_some_iff

theorem sorted_perm (vs : Variables) : vs.sorted.Perm (vs.bindings.entries.map (·.2)) :=
  Variable.foldr_place_perm _

theorem mem_sorted_iff : v ∈ vs.sorted ↔ ∃ key, vs.get? key = some v := by
  rw [vs.sorted_perm.mem_iff, List.mem_map]
  constructor
  · rintro ⟨⟨key, w⟩, he, rfl⟩
    exact ⟨key, get?_eq_some_iff.mpr he⟩
  · rintro ⟨key, hv⟩
    exact ⟨(key, v), get?_eq_some_iff.mp hv, rfl⟩

theorem length_sorted (vs : Variables) : vs.sorted.length = vs.size := by
  rw [vs.sorted_perm.length_eq, List.length_map]
  rfl

/-! ### Strays -/

/-- Whether a variable of another name stands under the key. -/
def IsStray (vs : Variables) (key : String) : Prop := ∃ v, vs.get? key = some v ∧ v.name ≠ key

/-- The names of a store's variables are its keys. Its list has each name once, in order, and all
variables; each of them is found by its name, and nothing by another name. -/
structure NamesAreKeys (vs : Variables) : Prop where
  increasing : vs.sorted.Pairwise fun v w => v.name < w.name
  length_eq : vs.sorted.length = vs.size
  get?_eq : ∀ v ∈ vs.sorted, vs.get? v.name = some v
  contains_eq_true : ∀ v ∈ vs.sorted, vs.contains v.name = true
  contains_eq_false : ∀ name, name ∉ vs.sorted.map Variable.name → vs.contains name = false

/-- Without strays the variables come in order of name as they come in order of key. -/
theorem increasing_of_not_isStray (h : ∀ key, ¬ vs.IsStray key) :
    vs.sorted.Pairwise fun v w => v.name < w.name := by
  have hname : ∀ e ∈ vs.bindings.entries, e.2.name = e.1 := by
    intro e he
    by_contra hne
    exact h e.1 ⟨e.2, get?_eq_some_iff.mpr he, hne⟩
  have hvalues : (vs.bindings.entries.map (·.2)).Pairwise fun v w => v.name < w.name := by
    refine List.pairwise_map.mpr (vs.bindings.increasing.imp_of_mem fun ha hb hlt => ?_)
    rwa [hname _ ha, hname _ hb]
  rwa [sorted, Variable.foldr_place_of_pairwise hvalues]

theorem namesAreKeys_of_not_isStray (h : ∀ key, ¬ vs.IsStray key) : NamesAreKeys vs := by
  have hget : ∀ v ∈ vs.sorted, vs.get? v.name = some v := by
    intro v hv
    obtain ⟨key, hkey⟩ := mem_sorted_iff.mp hv
    by_cases hname : v.name = key
    · rwa [hname]
    · exact absurd ⟨v, hkey, hname⟩ (h key)
  refine ⟨increasing_of_not_isStray h, vs.length_sorted, hget, fun v hv => ?_, fun name hname => ?_⟩
  · rw [contains_eq, hget v hv]
    rfl
  · cases hfound : vs.get? name with
    | none => rw [contains_eq, hfound]; rfl
    | some v =>
      refine absurd ?_ hname
      have hv : v ∈ vs.sorted := mem_sorted_iff.mpr ⟨name, hfound⟩
      by_cases heq : v.name = name
      · exact heq ▸ List.mem_map_of_mem hv
      · exact absurd ⟨v, hfound, heq⟩ (h name)

/-- A variable under a key that is not its name would be found by its name as well, and so be listed
twice. -/
theorem NamesAreKeys.not_isStray (h : NamesAreKeys vs) (key : String) : ¬ vs.IsStray key := by
  rintro ⟨v, hkey, hne⟩
  have hname := h.get?_eq v (mem_sorted_iff.mpr ⟨key, hkey⟩)
  have hnodup : (vs.bindings.entries.map (·.2)).Nodup := by
    refine vs.sorted_perm.nodup_iff.mp (h.increasing.imp fun hlt heq => ?_)
    rw [heq] at hlt
    exact String.lt_irrefl _ hlt
  have hsame := List.inj_on_of_nodup_map hnodup (get?_eq_some_iff.mp hname)
    (get?_eq_some_iff.mp hkey) rfl
  exact hne (congrArg Prod.fst hsame)

theorem namesAreKeys_iff : NamesAreKeys vs ↔ ∀ key, ¬ vs.IsStray key :=
  ⟨NamesAreKeys.not_isStray, namesAreKeys_of_not_isStray⟩

/-! ### Changes -/

inductive Change where
  | collect (l : List Variable)
  | set (v : Variable)
  | clear

namespace Change

def apply (vs : Variables) : Change → Variables
  | collect l => ofList l
  | set v => vs.set v
  | clear => empty

/-- Whether the change takes away what stood under the key. -/
def Replaces : Change → String → Prop
  | collect _, _ | clear, _ => True
  | set v, key => v.name = key

end Change

def after (vs : Variables) (changes : List Change) : Variables := changes.foldl Change.apply vs

theorem not_isStray_empty (key : String) : ¬ empty.IsStray key := by
  rintro ⟨v, hv, -⟩
  cases hv

/-- Setting a variable puts it under its name, over what was a stray there. -/
theorem isStray_set_iff : (vs.set v).IsStray key ↔ vs.IsStray key ∧ v.name ≠ key := by
  simp only [IsStray, get?_set]
  by_cases h : v.name = key
  · simp [h]
  · simp [h]

theorem isStray_foldl_set_iff {l : List Variable} :
    (l.foldl set vs).IsStray key ↔ vs.IsStray key ∧ ∀ v ∈ l, v.name ≠ key := by
  induction l generalizing vs with
  | nil => simp
  | cons v rest ih => rw [List.foldl_cons, ih, isStray_set_iff, List.forall_mem_cons, and_assoc]

theorem not_isStray_ofList (l : List Variable) (key : String) : ¬ (ofList l).IsStray key :=
  fun h => not_isStray_empty key (isStray_foldl_set_iff.mp h).1

/-- A change leaves the strays under the keys that it does not replace, and makes no new ones. -/
theorem isStray_apply_iff (c : Change) :
    (c.apply vs).IsStray key ↔ vs.IsStray key ∧ ¬ c.Replaces key := by
  cases c with
  | collect l => simp [Change.apply, Change.Replaces, not_isStray_ofList]
  | set v => exact isStray_set_iff
  | clear => simp [Change.apply, Change.Replaces, not_isStray_empty]

theorem isStray_after_iff (changes : List Change) :
    (vs.after changes).IsStray key ↔ vs.IsStray key ∧ ∀ c ∈ changes, ¬ c.Replaces key := by
  induction changes generalizing vs with
  | nil => simp [after]
  | cons c rest ih =>
      calc (vs.after (c :: rest)).IsStray key
          ↔ (c.apply vs).IsStray key ∧ ∀ c ∈ rest, ¬ c.Replaces key := ih
        _ ↔ vs.IsStray key ∧ ∀ c' ∈ c :: rest, ¬ c'.Replaces key := by
          rw [isStray_apply_iff, List.forall_mem_cons, and_assoc]

theorem namesAreKeys_after_iff {changes : List Change} :
    NamesAreKeys (vs.after changes) ↔
      ∀ key, vs.IsStray key → ∃ c ∈ changes, c.Replaces key := by
  simp [namesAreKeys_iff, isStray_after_iff]

/-! ### Documents -/

/-- The document that lists variables under keys, whatever their names. -/
def document (bindings : List (String × Variable)) : Json :=
  .object [("entries", .object (bindings.map fun e => (e.1, e.2.toJson)))]

theorem reads_document (bindings : List (String × Variable)) :
    decode.Reads (document bindings) ⟨.ofList bindings⟩ := by
  refine Shape.Reads.decoder ((Shape.reads_pure Variables.mk).field ?_) _
  exact Field.reads_required rfl (reads_keyed fun e _ => e.2.reads)

theorem numbers_document (bindings : List (String × Variable)) :
    (document bindings).numbers = [] := by
  have hnone : ∀ v : Variable, v.toJson.numbers = [] := fun _ => rfl
  simp [document, Json.numbers, Json.memberNumbers, Json.memberNumbers_map hnone]

theorem nesting_document_le (bindings : List (String × Variable)) :
    (document bindings).nesting ≤ 3 := by
  have hflat : ∀ v : Variable, v.toJson.nesting ≤ 1 := fun _ => Nat.le_refl 1
  have hmembers := Json.memberNesting_map_le hflat bindings
  simp only [document, Json.nesting, Json.memberNesting]
  omega

/-- A document is read as it stands: nothing compares its keys with the names. -/
theorem ofText_document (bindings : List (String × Variable)) :
    decode.ofText (document bindings).text = .ok ⟨.ofList bindings⟩ := by
  refine (reads_document bindings).ofText ?_ ?_
  · rw [numbers_document]
    exact List.forall_mem_nil _
  · exact Nat.le_trans (nesting_document_le bindings) (by decide)

theorem ofList_eq (l : List Variable) :
    ofList l = ⟨.ofList (l.map fun v => (v.name, v))⟩ := by
  rw [Keyed.ofList, List.foldl_map]
  exact List.foldl_hom Variables.mk fun _ _ => rfl

/-- A document that lists variables under their names holds what collecting them gives. -/
theorem ofText_document_map_name (l : List Variable) :
    decode.ofText (document (l.map fun v => (v.name, v))).text = .ok (ofList l) := by
  rw [ofText_document, ofList_eq]

/-- Names are keys, however a store comes about from nothing: by collecting variables, setting and
clearing them, or out of a document that lists each under its name. Any other document is taken as
it stands; what it gives has names for keys just if each variable under a key that is not its name
has been replaced since. -/
theorem names_are_keys (changes : List Change) :
    NamesAreKeys (empty.after changes) ∧
      (∀ l : List Variable, ∃ start,
        decode.ofText (document (l.map fun v => (v.name, v))).text = .ok start ∧
          NamesAreKeys (start.after changes)) ∧
      ∀ (s : String) (start : Variables), decode.ofText s = .ok start →
        (NamesAreKeys (start.after changes) ↔
          ∀ key, start.IsStray key → ∃ c ∈ changes, c.Replaces key) := by
  refine ⟨?_, fun l => ⟨ofList l, ofText_document_map_name l, ?_⟩, fun s start _ => ?_⟩
  · exact namesAreKeys_after_iff.mpr fun key hkey => absurd hkey (not_isStray_empty key)
  · exact namesAreKeys_after_iff.mpr fun key hkey => absurd hkey (not_isStray_ofList l key)
  · exact namesAreKeys_after_iff

/-- A variable under another key is mended once a variable of that name is set. -/
theorem names_are_keys_mended :
    ∃ start, decode.ofText (document [("k", .text "n" "v")]).text = .ok start ∧
      start.IsStray "k" ∧ NamesAreKeys (start.after [.set (.text "k" "w")]) := by
  have hread := ofText_document [("k", .text "n" "v")]
  have hstray : ∀ key, IsStray ⟨.ofList [("k", .text "n" "v")]⟩ key →
      ∃ c ∈ [Change.set (.text "k" "w")], c.Replaces key := by
    rintro key ⟨v, hv, -⟩
    have hkey : key = "k" := congrArg Prod.fst (List.mem_singleton.mp (get?_eq_some_iff.mp hv))
    exact ⟨_, List.mem_singleton_self _, hkey.symm⟩
  exact ⟨_, hread, ⟨_, rfl, by decide⟩,
    ((names_are_keys [.set (.text "k" "w")]).2.2 _ _ hread).mpr hstray⟩

/-- A document can hold a variable under another key. The store lists it under its name and does not
find it by this. -/
theorem listed_name_not_found :
    ∃ start, decode.ofText (document [("k", .text "n" "v")]).text = .ok start ∧
      start.sorted = [.text "n" "v"] ∧ start.get? "n" = none ∧ start.contains "n" = false ∧
      start.contains "k" = true ∧ ¬ NamesAreKeys (start.after []) := by
  refine ⟨_, ofText_document _, rfl, rfl, rfl, rfl, fun h => ?_⟩
  exact h.not_isStray "k" ⟨_, rfl, by decide⟩

end Variables

end Dialogue
