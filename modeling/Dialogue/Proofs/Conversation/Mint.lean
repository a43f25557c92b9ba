import Mathlib.Data.Set.Countable
import Mathlib.Logic.Denumerable
import Mathlib.Logic.Equiv.Set
import Dialogue.Conversation.Entry

/-! What mints give out. If the supply of a mint has no text twice, no id is given out twice, since
an id tells its kind; and the ids of one such mint can be renamed to those of another, one to one.
-/

namespace Dialogue

theorem countable_string : Countable String := by
  have : Countable Char := Function.Injective.countable (f := Char.toNat) fun _ _ h =>
    Char.ext (UInt32.toNat_inj.mp h)
  exact Function.Injective.countable (f := String.toList) fun _ _ h => String.toList_inj.mp h

/-- Two families of strings that leave out enough are the same under a permutation of all
strings. -/
theorem exists_perm_of_injective {ι : Type} {g h : ι → String} (hg : g.Injective)
    (hh : h.Injective) [Infinite ↑(Set.range g)ᶜ] [Infinite ↑(Set.range h)ᶜ] :
    ∃ f : Equiv.Perm String, ∀ i, f (g i) = h i := by
  classical
  have := countable_string
  obtain ⟨others⟩ : Nonempty (↑(Set.range g)ᶜ ≃ ↑(Set.range h)ᶜ) := nonempty_equiv_of_countable
  let family := (Equiv.ofInjective g hg).symm.trans (Equiv.ofInjective h hh)
  refine ⟨(Equiv.Set.sumCompl (Set.range g)).symm.trans
    ((Equiv.sumCongr family others).trans (Equiv.Set.sumCompl (Set.range h))), fun i => ?_⟩
  have hleft : (Equiv.Set.sumCompl (Set.range g)).symm (g i) = .inl (Equiv.ofInjective g hg i) :=
    Equiv.Set.sumCompl_symm_apply_of_mem (Set.mem_range_self i)
  simp only [Equiv.trans_apply, hleft, Equiv.sumCongr_apply, Sum.map_inl,
    Equiv.Set.sumCompl_apply_inl, family, Equiv.symm_apply_apply]
  rfl

namespace Mint

inductive Use where
  | user
  | feedback
  | interceptor

def Use.kind : Use → String
  | user => "user"
  | feedback => "feedback"
  | interceptor => "interceptor"

/-- The id that a mint will give out after `k` others. -/
def idAfter (m : Mint) (u : Use) (k : Nat) : String :=
  { m with made := m.made + k }.fresh u.kind

/-- Whether `n` gives out the ids of `m` under other names. -/
def Renames (f : String → String) (m n : Mint) : Prop := ∀ u k, f (m.idAfter u k) = n.idAfter u k

namespace Renames

variable {f : String → String} {m n : Mint}

theorem fresh (h : m.Renames f n) (u : Use) : f (m.fresh u.kind) = n.fresh u.kind := h u 0

theorem advance (h : m.Renames f n) : m.advance.Renames f n.advance := by
  intro u k
  simpa only [idAfter, Mint.advance, Nat.add_right_comm _ 1 k, Nat.add_assoc] using h u (k + 1)

end Renames

theorem idAfter_eq (m : Mint) (u : Use) (k : Nat) :
    m.idAfter u k = u.kind ++ ("-" ++ m.supply (m.made + k)) := by
  simp only [idAfter, fresh, String.append_assoc]
  rfl

theorem head?_idAfter (m : Mint) (u : Use) (k : Nat) :
    (m.idAfter u k).toList.head? = u.kind.toList.head? := by
  rw [idAfter_eq, String.toList_append]
  cases u <;> rfl

/-- No id is given out twice, if the supply has no text twice. -/
theorem idAfter_injective {m : Mint} (hm : m.supply.Injective) :
    Function.Injective fun p : Use × Nat => m.idAfter p.1 p.2 := by
  rintro ⟨u, k⟩ ⟨u', k'⟩ h
  have hhead := congrArg (fun id : String => id.toList.head?) h
  simp only [head?_idAfter] at hhead
  -- The kinds differ in their first letter.
  obtain rfl : u = u' := by
    cases u <;> cases u' <;> first | rfl | cases hhead
  simp only [idAfter_eq, String.append_right_inj] at h
  rw [Nat.add_left_cancel (hm h)]

theorem infinite_compl_range_idAfter (m : Mint) :
    Infinite ↑(Set.range fun p : Use × Nat => m.idAfter p.1 p.2)ᶜ := by
  -- No kind begins with the letter `x`.
  refine Infinite.of_injective (fun k => ⟨String.ofList (List.replicate k 'x'), ?_⟩) ?_
  · rintro ⟨⟨u, j⟩, h⟩
    have hhead := congrArg (fun id : String => id.toList.head?) h
    simp only [head?_idAfter, String.toList_ofList] at hhead
    cases k <;> cases u <;> cases hhead
  · intro k k' h
    have hlength := congrArg (fun id => id.val.toList.length) h
    simpa using hlength

/-- The ids of one mint can be renamed to those of another, one to one. -/
theorem exists_renames {m n : Mint} (hm : m.supply.Injective) (hn : n.supply.Injective) :
    ∃ f : Equiv.Perm String, m.Renames f n := by
  have := m.infinite_compl_range_idAfter
  have := n.infinite_compl_range_idAfter
  obtain ⟨f, hf⟩ := exists_perm_of_injective (idAfter_injective hm) (idAfter_injective hn)
  exact ⟨f, fun u k => hf (u, k)⟩

theorem repr_injective {k k' : Nat} (h : k.repr = k'.repr) : k = k' := by
  have hdigits : Nat.toDigits 10 k = Nat.toDigits 10 k' := by
    rw [← Nat.toList_repr, ← Nat.toList_repr, h]
  rw [← Nat.ofDigitChars_toDigits (b := 10) (n := k) (by decide) (by decide), hdigits]
  exact Nat.ofDigitChars_toDigits (by decide) (by decide)

theorem supply_ofNonce_injective (nonce : String) : (ofNonce nonce).supply.Injective := by
  intro k k' h
  have hsplit : ∀ k : Nat, (ofNonce nonce).supply k = nonce ++ ("-" ++ k.repr) := fun k => by
    simp only [ofNonce, ← String.append_assoc]
    rfl
  simp only [hsplit, String.append_right_inj] at h
  exact repr_injective h

end Mint

end Dialogue
