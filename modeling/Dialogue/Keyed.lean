/-! Finite maps and sets of strings, kept in increasing order of code points, so that equal
contents are equal values. -/

namespace Dialogue

/-- A map from strings: its entries, in strictly increasing order of key. -/
structure Keyed (α : Type) where
  entries : List (String × α)
  increasing : entries.Pairwise fun a b => a.1 < b.1
  deriving DecidableEq, Repr

namespace Keyed

variable {α : Type}

/-- The entries with `k` bound to `v`, in place of an earlier binding or at its place in the
order. -/
def put (k : String) (v : α) : List (String × α) → List (String × α)
  | [] => [(k, v)]
  | e :: rest =>
    if k < e.1 then (k, v) :: e :: rest
    else if e.1 < k then e :: put k v rest
    else (k, v) :: rest

theorem eq_of_not_lt {a b : String} (h : ¬ a < b) (h' : ¬ b < a) : a = b :=
  String.le_antisymm (String.not_lt.1 h') (String.not_lt.1 h)

theorem key_of_mem_put {k : String} {v : α} {l : List (String × α)} {e : String × α}
    (h : e ∈ put k v l) : e.1 = k ∨ e ∈ l := by
  induction l with
  | nil => simp [put] at h; simp [h]
  | cons head rest ih =>
    simp only [put] at h
    split at h
    · rcases List.mem_cons.1 h with rfl | h
      · exact .inl rfl
      · exact .inr h
    · split at h
      · rcases List.mem_cons.1 h with rfl | h
        · exact .inr (List.mem_cons_self ..)
        · exact (ih h).imp id (List.mem_cons_of_mem _)
      · rcases List.mem_cons.1 h with rfl | h
        · exact .inl rfl
        · exact .inr (List.mem_cons_of_mem _ h)

theorem pairwise_put (k : String) (v : α) {l : List (String × α)}
    (h : l.Pairwise fun a b => a.1 < b.1) : (put k v l).Pairwise fun a b => a.1 < b.1 := by
  induction l with
  | nil => simp [put]
  | cons head rest ih =>
    obtain ⟨hlt, hrest⟩ := List.pairwise_cons.1 h
    simp only [put]
    split
    · next hk =>
      refine List.pairwise_cons.2 ⟨fun e he => ?_, h⟩
      rcases List.mem_cons.1 he with rfl | he
      · exact hk
      · exact String.lt_trans hk (hlt e he)
    · next hk =>
      split
      · next hk' =>
        refine List.pairwise_cons.2 ⟨fun e he => ?_, ih hrest⟩
        rcases key_of_mem_put he with rfl | he
        · exact hk'
        · exact hlt e he
      · next hk' =>
        obtain rfl := eq_of_not_lt hk hk'
        exact List.pairwise_cons.2 ⟨hlt, hrest⟩

/-- A key above all others goes to the end. -/
theorem put_of_lt {k : String} {v : α} {l : List (String × α)} (h : ∀ e ∈ l, e.1 < k) :
    put k v l = l ++ [(k, v)] := by
  induction l with
  | nil => rfl
  | cons head rest ih =>
    have hk := h head (List.mem_cons_self ..)
    simp [put, hk, String.lt_asymm hk, ih fun e he => h e (List.mem_cons_of_mem _ he)]

theorem forall_mem_put {k : String} {v : α} {l : List (String × α)} {p : String × α → Prop}
    (hp : p (k, v)) (h : ∀ e ∈ l, p e) : ∀ e ∈ put k v l, p e := by
  induction l with
  | nil => simpa [put] using hp
  | cons head rest ih =>
    obtain ⟨hhead, hrest⟩ := List.forall_mem_cons.1 h
    simp only [put]
    split
    · exact List.forall_mem_cons.2 ⟨hp, h⟩
    · split
      · exact List.forall_mem_cons.2 ⟨hhead, ih hrest⟩
      · exact List.forall_mem_cons.2 ⟨hp, hrest⟩

def empty : Keyed α := ⟨[], .nil⟩

instance : EmptyCollection (Keyed α) := ⟨empty⟩

instance : Inhabited (Keyed α) := ⟨empty⟩

def insert (m : Keyed α) (k : String) (v : α) : Keyed α :=
  ⟨put k v m.entries, pairwise_put k v m.increasing⟩

def get? (m : Keyed α) (k : String) : Option α :=
  (m.entries.find? (·.1 == k)).map (·.2)

def contains (m : Keyed α) (k : String) : Bool :=
  (m.get? k).isSome

def size (m : Keyed α) : Nat :=
  m.entries.length

/-- The map that binds each key to the last of its values in the list. -/
def ofList (l : List (String × α)) : Keyed α :=
  l.foldl (fun m e => m.insert e.1 e.2) empty

@[simp] theorem get?_empty (k : String) : (empty : Keyed α).get? k = none := rfl

theorem get?_insert (m : Keyed α) (k k' : String) (v : α) :
    (m.insert k v).get? k' = if k = k' then some v else m.get? k' := by
  obtain ⟨l, h⟩ := m
  simp only [get?, insert]
  induction l with
  | nil => by_cases hk : k = k' <;> simp [put, hk]
  | cons head rest ih =>
    have ih := ih (List.pairwise_cons.1 h).2
    simp only [put]
    split
    · by_cases hk : k = k' <;> simp [hk]
    · split
      · next hlt =>
        by_cases hh : head.1 = k'
        · have : k ≠ k' := fun hk => String.lt_irrefl k' (by rw [hh, hk] at hlt; exact hlt)
          simp [hh, this]
        · simpa [hh] using ih
      · next h1 h2 =>
        have := eq_of_not_lt h1 h2
        by_cases hk : k = k' <;> simp [hk, ← this]

/-- What is found under a key is its entry. -/
theorem get?_eq_some_iff {m : Keyed α} {k : String} {v : α} :
    m.get? k = some v ↔ (k, v) ∈ m.entries := by
  obtain ⟨l, h⟩ := m
  simp only [get?]
  induction l with
  | nil => simp
  | cons head rest ih =>
    obtain ⟨hlt, hrest⟩ := List.pairwise_cons.1 h
    have ih := ih hrest
    by_cases hk : head.1 = k
    · have hout : ¬ (k, v) ∈ rest := fun hmem =>
        String.lt_irrefl k (by simpa [hk] using hlt _ hmem)
      simp [hk, hout, Prod.ext_iff, eq_comm]
    · have hne : (k, v) ≠ head := fun he => hk (by rw [← he])
      simpa [hk, hne] using ih

end Keyed

/-- A set of names, listed in strictly increasing order. -/
structure NameSet where
  names : List String
  increasing : names.Pairwise (· < ·)
  deriving DecidableEq, Repr

namespace NameSet

/-- The list with `n` at its place. -/
def put (n : String) : List String → List String
  | [] => [n]
  | head :: rest =>
    if n < head then n :: head :: rest
    else if head < n then head :: put n rest
    else head :: rest

theorem mem_put {n x : String} {l : List String} : x ∈ put n l ↔ x = n ∨ x ∈ l := by
  induction l with
  | nil => simp [put]
  | cons head rest ih =>
    simp only [put]
    split
    · simp
    · split
      · simp only [List.mem_cons, ih, or_left_comm]
      · next h1 h2 =>
        obtain rfl := Keyed.eq_of_not_lt h1 h2
        simp

theorem pairwise_put (n : String) {l : List String} (h : l.Pairwise (· < ·)) :
    (put n l).Pairwise (· < ·) := by
  induction l with
  | nil => simp [put]
  | cons head rest ih =>
    obtain ⟨hlt, hrest⟩ := List.pairwise_cons.1 h
    simp only [put]
    split
    · next hn =>
      refine List.pairwise_cons.2 ⟨fun x hx => ?_, h⟩
      rcases List.mem_cons.1 hx with rfl | hx
      · exact hn
      · exact String.lt_trans hn (hlt x hx)
    · split
      · next hn =>
        refine List.pairwise_cons.2 ⟨fun x hx => ?_, ih hrest⟩
        rcases mem_put.1 hx with rfl | hx
        · exact hn
        · exact hlt x hx
      · exact h

def empty : NameSet := ⟨[], .nil⟩

instance : EmptyCollection NameSet := ⟨empty⟩

instance : Inhabited NameSet := ⟨empty⟩

instance : Membership String NameSet := ⟨fun s n => n ∈ s.names⟩

instance (n : String) (s : NameSet) : Decidable (n ∈ s) :=
  inferInstanceAs (Decidable (n ∈ s.names))

def insert (s : NameSet) (n : String) : NameSet :=
  ⟨put n s.names, pairwise_put n s.increasing⟩

def insertAll (s : NameSet) (ns : List String) : NameSet :=
  ns.foldl insert s

/-- The members that pass a test. -/
def filter (s : NameSet) (p : String → Bool) : NameSet :=
  ⟨s.names.filter p, s.increasing.filter p⟩

@[simp] theorem mem_names {s : NameSet} {n : String} : n ∈ s.names ↔ n ∈ s := Iff.rfl

@[simp] theorem not_mem_empty (n : String) : ¬ n ∈ empty := List.not_mem_nil

@[simp] theorem mem_insert {s : NameSet} {n x : String} : x ∈ s.insert n ↔ x = n ∨ x ∈ s :=
  mem_put

@[simp] theorem mem_insertAll {s : NameSet} {ns : List String} {x : String} :
    x ∈ s.insertAll ns ↔ x ∈ ns ∨ x ∈ s := by
  induction ns generalizing s with
  | nil => simp [insertAll]
  | cons n ns ih =>
    have := ih (s := s.insert n)
    simp only [insertAll, List.foldl_cons] at this ⊢
    rw [this, mem_insert, List.mem_cons]
    exact ⟨fun h => by rcases h with h | h | h <;> simp [h], fun h => by
      rcases h with (h | h) | h <;> simp [h]⟩

@[simp] theorem mem_filter {s : NameSet} {p : String → Bool} {x : String} :
    x ∈ s.filter p ↔ x ∈ s ∧ p x = true :=
  List.mem_filter

end NameSet

end Dialogue
