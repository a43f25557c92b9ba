import Mathlib.Data.List.Forall2
import Dialogue.Proofs.Conversation.Cut

/-! What an edit makes of entries. A step entry takes the form that the flow gives its step, and one
whose step is gone goes. The cuts that are made again change nothing but texts of components. -/

namespace Dialogue

namespace Entry

theorem patch?_step_none {g : FlowGraph} {s : Step} (h : g.step? s.id = none) :
    (step s).patch? g = none := by
  simp [patch?, h]

theorem patch?_step_some {g : FlowGraph} {s fresh : Step} (h : g.step? s.id = some fresh) :
    (step s).patch? g = some (step fresh) := by
  simp [patch?, h]

theorem step?_of_patch? {g : FlowGraph} {e : Entry} {s : Step} (h : e.patch? g = some (step s)) :
    ∃ old, e = step old ∧ old.id = s.id ∧ g.step? s.id = some s := by
  cases e with
  | step old =>
      obtain ⟨now, hnow, hs⟩ := Option.map_eq_some_iff.mp h
      cases hs
      exact ⟨old, rfl, (FlowGraph.step?_eq_some hnow).2.symm, FlowGraph.step?_id hnow⟩
  | interceptor i =>
      simp only [patch?] at h
      split at h <;> cases h
  | feedback f => cases h
  | userMessage m => cases h

end Entry

/-! ### What cuts leave -/

theorem Component.withStreamedText_withStreamedText (d : Component) (text text' : String) :
    (d.withStreamedText text).withStreamedText text' = d.withStreamedText text' := by
  cases d <;> rfl

/-- Whether `d'` is `d`, or what one of the cuts leaves of it. -/
def Component.CutBy (cuts : List Cut) (d d' : Component) : Prop :=
  d' = d ∨ ∃ cut ∈ cuts, cut.componentId = d.id ∧ d' = d.withStreamedText cut.text

def Step.CutBy (cuts : List Cut) (s s' : Step) : Prop :=
  ∃ components, List.Forall₂ (Component.CutBy cuts) s.components components ∧
    s' = s.withComponents components

namespace Component.CutBy

variable {cuts : List Cut}

theorem mono {cuts' : List Cut} (hcuts : cuts ⊆ cuts') {d d' : Component} (h : CutBy cuts d d') :
    CutBy cuts' d d' := by
  rcases h with he | ⟨cut, hcut, hd⟩
  · exact .inl he
  · exact .inr ⟨cut, hcuts hcut, hd⟩

theorem id_eq {d d' : Component} (h : CutBy cuts d d') : d'.id = d.id := by
  rcases h with rfl | ⟨cut, -, -, rfl⟩
  · rfl
  · exact d.id_withStreamedText cut.text

theorem inComponents {cut : Cut} (hcut : cut ∈ cuts) (n : Nat) {ds cs : List Component}
    (h : List.Forall₂ (CutBy cuts) ds cs) :
    List.Forall₂ (CutBy cuts) ds (Cut.inComponents cut.componentId cut.text n cs) := by
  induction h generalizing n with
  | nil => exact .nil
  | @cons d c ds cs hc hcs ih =>
      simp only [Cut.inComponents]
      split
      · next hid =>
        cases n with
        | succ n => exact .cons hc (ih n)
        | zero =>
            refine .cons (.inr ⟨cut, hcut, hid.symm.trans hc.id_eq, ?_⟩) hcs
            rcases hc with rfl | ⟨earlier, -, -, rfl⟩
            · rfl
            · exact d.withStreamedText_withStreamedText earlier.text cut.text
      · exact .cons hc (ih n)

end Component.CutBy

namespace Step

variable {cuts : List Cut} {s s' : Step}

@[simp] theorem withComponents_components (s : Step) : s.withComponents s.components = s := by
  cases s <;> rfl

@[simp] theorem id_withComponents (s : Step) (cs : List Component) :
    (s.withComponents cs).id = s.id := by
  cases s <;> rfl

namespace CutBy

theorem refl (cuts : List Cut) (s : Step) : CutBy cuts s s :=
  ⟨s.components, List.forall₂_same.mpr fun _ _ => .inl rfl, s.withComponents_components.symm⟩

theorem mono {cuts' : List Cut} (hcuts : cuts ⊆ cuts') (h : CutBy cuts s s') :
    CutBy cuts' s s' := by
  obtain ⟨components, hcomponents, rfl⟩ := h
  exact ⟨components, hcomponents.imp fun _ _ hd => hd.mono hcuts, rfl⟩

theorem id_eq (h : CutBy cuts s s') : s'.id = s.id := by
  obtain ⟨components, -, rfl⟩ := h
  exact s.id_withComponents components

theorem inComponents {cut : Cut} (hcut : cut ∈ cuts) (n : Nat) (h : CutBy cuts s s') :
    CutBy cuts s
      (s'.withComponents (Cut.inComponents cut.componentId cut.text n s'.components)) := by
  obtain ⟨components, hcomponents, rfl⟩ := h
  cases s with
  | turn id cs => exact ⟨_, Component.CutBy.inComponents hcut n hcomponents, rfl⟩
  | _ => exact ⟨components, hcomponents, rfl⟩

end CutBy

end Step

namespace Cut

/-- A cut changes the components of one step entry, and nothing else. -/
theorem exists_of_step_mem_inEntries {id : ComponentId} {text : String} {n : Nat}
    {es : List Entry} {s' : Step} (h : .step s' ∈ inEntries id text n es) :
    ∃ s, .step s ∈ es ∧
      (s' = s ∨ ∃ n, s' = s.withComponents (inComponents id text n s.components)) := by
  fun_induction inEntries id text n es with
  | case1 n => cases h
  | case2 n e rest hn =>
      rcases List.mem_cons.mp h with he | hrest
      · cases e with
        | step s =>
            cases he
            exact ⟨s, List.mem_cons_self, .inr ⟨n, rfl⟩⟩
        | _ => cases he
      · exact ⟨s', List.mem_cons_of_mem _ hrest, .inl rfl⟩
  | case3 n e rest hn ih =>
      rcases List.mem_cons.mp h with he | hrest
      · exact ⟨s', he ▸ List.mem_cons_self, .inl rfl⟩
      · obtain ⟨s, hs, hs'⟩ := ih hrest
        exact ⟨s, List.mem_cons_of_mem _ hs, hs'⟩

end Cut

/-- Whether each step entry is one of the known steps, but for texts that cuts have shortened. -/
def Entry.AreCutBy (known : Step → Prop) (cuts : List Cut) (es : List Entry) : Prop :=
  ∀ s', .step s' ∈ es → ∃ s, known s ∧ Step.CutBy cuts s s'

namespace Entry.AreCutBy

variable {known : Step → Prop} {cuts : List Cut} {es : List Entry}

theorem mono {cuts' : List Cut} (h : AreCutBy known cuts es) (hcuts : cuts ⊆ cuts') :
    AreCutBy known cuts' es := by
  intro s' hs'
  obtain ⟨s, hs, hcut⟩ := h s' hs'
  exact ⟨s, hs, hcut.mono hcuts⟩

theorem concat (h : AreCutBy known cuts es) {e : Entry} (he : ∀ s, e = .step s → known s) :
    AreCutBy known cuts (es ++ [e]) := by
  intro s hs
  rcases List.mem_append.mp hs with hs | hs
  · exact h s hs
  · exact ⟨s, he s (List.mem_singleton.mp hs).symm, Step.CutBy.refl cuts s⟩

end Entry.AreCutBy

theorem Cut.areCutBy_apply {known : Step → Prop} {cuts : List Cut} {cut : Cut} (hcut : cut ∈ cuts)
    {es : List Entry} (h : Entry.AreCutBy known cuts es) :
    Entry.AreCutBy known cuts (cut.apply es) := by
  intro s' hs'
  obtain ⟨t, ht, hcut'⟩ := exists_of_step_mem_inEntries hs'
  obtain ⟨s, hs, hst⟩ := h t ht
  rcases hcut' with rfl | ⟨n, rfl⟩
  · exact ⟨s, hs, hst⟩
  · exact ⟨s, hs, hst.inComponents hcut n⟩

theorem Conversation.areCutBy_recut {known : Step → Prop} {cuts : List Cut} {es : List Entry}
    (h : Entry.AreCutBy known cuts es) : Entry.AreCutBy known cuts (recut cuts es) := by
  have hfold : ∀ (made : List Cut) (es : List Entry), made ⊆ cuts →
      Entry.AreCutBy known cuts es → Entry.AreCutBy known cuts (recut made es) := by
    intro made
    induction made with
    | nil => exact fun _ _ hes => hes
    | cons cut rest ih =>
        intro es hmade hes
        obtain ⟨hcut, hrest⟩ := List.cons_subset.mp hmade
        exact ih (cut.apply es) hrest (Cut.areCutBy_apply hcut hes)
  exact hfold cuts es (List.Subset.refl cuts) h

/-! ### What an edit leaves alone -/

namespace Conversation

variable {c : Conversation} {g : FlowGraph}

/-- A conversation that has nothing to follow an edit by stays as it is. -/
theorem resync_eq_self (hhistory : c.patchedHistory g = c.history)
    (hqueue : c.queue.filterMap (Entry.patch? g) = c.queue)
    (hvisible : c.patchedVisible g = c.visible) (hcursor : ∀ id ∈ c.cursor, g.contains id = true)
    (hwaiting : c.phase = .awaitingInterceptor → c.interceptors ≠ []) : c.resync g = c := by
  have hcursor : c.cursor.filter g.contains = c.cursor := by
    cases hc : c.cursor with
    | none => rfl
    | some id => simp [Option.filter, hcursor id hc]
  have hphase : (if (c.history ++ c.queue).any fun e => e.interceptor?.isSome then c.phase
      else c.phaseWithout) = c.phase := by
    split
    · rfl
    · next hnone =>
      unfold phaseWithout
      split
      · next hp =>
        refine absurd ?_ (hwaiting hp)
        simpa [interceptors, List.filterMap_eq_nil_iff] using hnone
      · rfl
  simp only [resync, hhistory, hvisible, hqueue, hcursor, hphase]

theorem dropped_eq_zero_of_forall
    (h : ∀ e ∈ c.history ++ c.queue, (e.patch? g).isSome = true) :
    (c.resyncReport g).dropped = 0 := by
  have hpatched : ((c.history ++ c.queue).filter Entry.isPatchable).countP
      (fun e => (e.patch? g).isSome) =
      ((c.history ++ c.queue).filter Entry.isPatchable).length :=
    List.countP_eq_length.mpr fun e he => h e (List.mem_of_mem_filter he)
  simp only [resyncReport, hpatched, Nat.sub_self]

end Conversation

end Dialogue
