import Dialogue.Proofs.Conversation.Resync

/-! What stops leave of texts, entry by entry. A cut is remembered by a component and a number of
copies in front, which is meant to be one entry of history. Where an edit leaves all cuts in the
entries that they are for, they are made again in just these entries. -/

namespace Dialogue

namespace Entry

def steps (es : List Entry) : List Step := es.filterMap step?

theorem copies_of_not_step {e : Entry} (h : e.step? = none) (id : ComponentId) :
    e.copies id = 0 := by
  cases e with
  | step s => cases h
  | _ => rfl

theorem not_step_of_patch? {g : FlowGraph} {e e' : Entry} (he : e.step? = none)
    (h : e.patch? g = some e') : e'.step? = none := by
  cases e' with
  | step s =>
      obtain ⟨old, rfl, -, -⟩ := step?_of_patch? h
      cases he
  | _ => rfl

def copiesAfter (g : FlowGraph) (id : ComponentId) (e : Entry) : Nat :=
  (e.patch? g).elim 0 (copies id)

end Entry

namespace Cut

/-- In which entry the copy is found that has `n` others before it, by the copies in each. -/
def landing? : Nat → List Nat → Option Nat
  | _, [] => none
  | n, k :: ks => if n < k then some 0 else (landing? (n - k) ks).map (· + 1)

/-- Whether a cut is in the same entry by the copies before an edit and by those after it. -/
def IsSteady (g : FlowGraph) (history : List Entry) (cut : Cut) : Prop :=
  landing? cut.copy (history.map (Entry.copies cut.componentId)) =
    landing? cut.copy (history.map (Entry.copiesAfter g cut.componentId))

instance (g : FlowGraph) (history : List Entry) (cut : Cut) : Decidable (cut.IsSteady g history) :=
  inferInstanceAs (Decidable (_ = _))

theorem lt_of_landing?_eq {n n' k k' : Nat} {ks ks' : List Nat} (hn : n < k)
    (h : landing? n (k :: ks) = landing? n' (k' :: ks')) : n' < k' := by
  rw [landing?, if_pos hn, landing?] at h
  split at h
  · assumption
  · obtain ⟨i, -, hi⟩ := Option.map_eq_some_iff.mp h.symm
    cases hi

/-- A copy that is behind the first of some entries is behind the first of the others too. -/
theorem landing?_eq_of_le {n n' k k' : Nat} {ks ks' : List Nat} (hn : k ≤ n)
    (h : landing? n (k :: ks) = landing? n' (k' :: ks')) :
    k' ≤ n' ∧ landing? (n - k) ks = landing? (n' - k') ks' := by
  rw [landing?, if_neg (Nat.not_lt.mpr hn), landing?] at h
  split at h
  · obtain ⟨i, -, hi⟩ := Option.map_eq_some_iff.mp h
    cases hi
  · next hn' => exact ⟨Nat.le_of_not_lt hn', Option.map_injective (fun _ _ => Nat.succ.inj) h⟩

end Cut

namespace Step

/-- The step with what is left of one of its texts. -/
def shortened (s : Step) (w : Streaming) : Step :=
  s.withComponents (Cut.inComponents w.componentId w.text 0 s.components)

/-- The step as history has it, by what a stop left of one of its texts, if one did. -/
def leftAs (s : Step) (left : Option Streaming) : Step := left.elim s s.shortened

end Step

namespace Entry

@[simp] theorem copies_shortened (id : ComponentId) (s : Step) (w : Streaming) :
    (step (s.shortened w)).copies id = (step s).copies id :=
  copies_cut id w.componentId w.text 0 (step s)

end Entry

/-- What is left of the steps of a flow in entries of history. For each of the step entries `left`
has what a stop left of one of its texts, if one did, and `cuts` has the cut that says so, where
`seen` counts the copies of components in front. -/
inductive Remnants (g : FlowGraph) :
    (ComponentId → Nat) → List Entry → List (Option Streaming) → List Cut → Prop where
  | nil (seen) : Remnants g seen [] [] []
  | other {seen es left cuts} (e : Entry) (he : e.step? = none) (h : Remnants g seen es left cuts) :
      Remnants g seen (e :: es) left cuts
  | whole {seen es left cuts} (now : Step) (hnow : g.step? now.id = some now)
      (h : Remnants g (fun id => seen id + (Entry.step now).copies id) es left cuts) :
      Remnants g seen (.step now :: es) (none :: left) cuts
  | short {seen es left cuts} (now : Step) (hnow : g.step? now.id = some now) (w : Streaming)
      (hw : 0 < (Entry.step now).copies w.componentId)
      (h : Remnants g (fun id => seen id + (Entry.step now).copies id) es left cuts) :
      Remnants g seen (.step (now.shortened w) :: es) (some w :: left)
        (⟨w.componentId, seen w.componentId, w.text⟩ :: cuts)

namespace Remnants

variable {g : FlowGraph} {seen : ComponentId → Nat} {es : List Entry}
  {left : List (Option Streaming)} {cuts : List Cut}

/-- Each step entry is what the flow has of its step, but for the text that a stop cut. -/
theorem leftAs (h : Remnants g seen es left cuts) :
    List.Forall₂ (fun st l => ∃ now, g.step? st.id = some now ∧ st = now.leftAs l)
      (Entry.steps es) left := by
  induction h with
  | nil seen => exact .nil
  | other e he h ih =>
      rw [Entry.steps, List.filterMap_cons_none he]
      exact ih
  | whole now hnow h ih => exact .cons ⟨now, hnow, rfl⟩ ih
  | short now hnow w hw h ih =>
      refine .cons ⟨now, ?_, rfl⟩ ih
      rw [Step.shortened, Step.id_withComponents]
      exact hnow

theorem length_eq (h : Remnants g seen es left cuts) : (Entry.steps es).length = left.length :=
  h.leftAs.length_eq

theorem seen_le (h : Remnants g seen es left cuts) :
    ∀ cut ∈ cuts, seen cut.componentId ≤ cut.copy := by
  induction h with
  | nil seen => exact nofun
  | other e he h ih => exact ih
  | whole now hnow h ih => exact fun cut hcut => Nat.le_trans (Nat.le_add_right _ _) (ih cut hcut)
  | short now hnow w hw h ih =>
      refine List.forall_mem_cons.mpr ⟨Nat.le_refl _, fun cut hcut => ?_⟩
      exact Nat.le_trans (Nat.le_add_right _ _) (ih cut hcut)

theorem append {es' : List Entry} {left' : List (Option Streaming)} {cuts' : List Cut}
    (h : Remnants g seen es left cuts)
    (h' : Remnants g (fun id => seen id + Entry.copiesIn id es) es' left' cuts') :
    Remnants g seen (es ++ es') (left ++ left') (cuts ++ cuts') := by
  induction h with
  | nil seen => simpa using h'
  | other e he h ih =>
      refine .other e he (ih ?_)
      simpa [Entry.copies_of_not_step he] using h'
  | whole now hnow h ih =>
      refine .whole now hnow (ih ?_)
      simpa [Nat.add_assoc] using h'
  | short now hnow w hw h ih =>
      refine .short now hnow w hw (ih ?_)
      simpa [Nat.add_assoc] using h'

theorem split {es' : List Entry} (h : Remnants g seen (es ++ es') left cuts) :
    ∃ left₁ left₂ cuts₁ cuts₂, left = left₁ ++ left₂ ∧ cuts = cuts₁ ++ cuts₂ ∧
      Remnants g seen es left₁ cuts₁ ∧
        Remnants g (fun id => seen id + Entry.copiesIn id es) es' left₂ cuts₂ := by
  induction es generalizing seen left cuts with
  | nil => exact ⟨[], left, [], cuts, rfl, rfl, .nil seen, by simpa using h⟩
  | cons e rest ih =>
      cases h with
      | other e he h =>
          obtain ⟨left₁, left₂, cuts₁, cuts₂, rfl, rfl, h₁, h₂⟩ := ih h
          refine ⟨left₁, left₂, cuts₁, cuts₂, rfl, rfl, .other e he h₁, ?_⟩
          simpa [Entry.copies_of_not_step he] using h₂
      | whole now hnow h =>
          obtain ⟨left₁, left₂, cuts₁, cuts₂, rfl, rfl, h₁, h₂⟩ := ih h
          refine ⟨none :: left₁, left₂, cuts₁, cuts₂, rfl, rfl, .whole now hnow h₁, ?_⟩
          simpa [Nat.add_assoc] using h₂
      | short now hnow w hw h =>
          obtain ⟨left₁, left₂, cuts₁, cuts₂, rfl, rfl, h₁, h₂⟩ := ih h
          refine ⟨some w :: left₁, left₂, _ :: cuts₁, cuts₂, rfl, rfl, .short now hnow w hw h₁, ?_⟩
          simpa [Nat.add_assoc] using h₂

/-- A stop cuts a text of the last entry. -/
theorem shorten {front : List Entry} {st : Step} {w : Streaming}
    (h : Remnants g seen (front ++ [.step st]) (left ++ [none]) cuts)
    (hw : 0 < (Entry.step st).copies w.componentId) :
    Remnants g seen (front ++ [.step (st.shortened w)]) (left ++ [some w]) (cuts ++
      [⟨w.componentId, seen w.componentId + Entry.copiesIn w.componentId front, w.text⟩]) := by
  obtain ⟨left₁, left₂, cuts₁, cuts₂, hleft, rfl, h₁, h₂⟩ := h.split
  cases h₂ with
  | other _ he _ => cases he
  | short now hnow w' _ hnil =>
      cases hnil
      have hlast := (List.append_inj' hleft rfl).2
      cases hlast
  | whole _ hnow hnil =>
      cases hnil
      rw [(List.append_inj' hleft rfl).1, List.append_nil]
      exact h₁.append (.short st hnow w hw (.nil _))

theorem concat (h : Remnants g seen es left cuts) {e : Entry}
    (he : ∀ s, e = .step s → g.step? s.id = some s) :
    ∃ k, Remnants g seen (es ++ [e]) (left ++ List.replicate k none) cuts := by
  cases hstep : e.step? with
  | none =>
      refine ⟨0, ?_⟩
      simpa using h.append (.other e hstep (.nil _))
  | some s =>
      obtain rfl : e = .step s := by
        cases e with
        | step s' => exact congrArg Entry.step (Option.some.inj hstep)
        | _ => cases hstep
      refine ⟨1, ?_⟩
      simpa using h.append (.whole s (he s rfl) (.nil _))

theorem eraseP (h : Remnants g seen es left cuts) (id : String) :
    Remnants g seen (es.eraseP (Entry.isInterceptor id)) left cuts := by
  induction h with
  | nil seen => exact .nil seen
  | other e he h ih =>
      rw [List.eraseP_cons]
      cases e.isInterceptor id with
      | true => exact h
      | false => exact .other e he ih
  | whole now hnow h ih => exact .whole now hnow ih
  | short now hnow w hw h ih => exact .short now hnow w hw ih

end Remnants

/-- What is left over of what stops left, where an edit drops the steps that are not in its flow. -/
def survivors (g : FlowGraph) (steps : List Step) (left : List (Option Streaming)) :
    List (Option Streaming) :=
  (steps.zip left).filterMap fun p => (g.step? p.1.id).map fun _ => p.2

theorem survivors_cons_none {g : FlowGraph} {st : Step} (h : g.step? st.id = none)
    (steps : List Step) (l : Option Streaming) (left : List (Option Streaming)) :
    survivors g (st :: steps) (l :: left) = survivors g steps left := by
  simp [survivors, h]

theorem survivors_cons_some {g : FlowGraph} {st fresh : Step} (h : g.step? st.id = some fresh)
    (steps : List Step) (l : Option Streaming) (left : List (Option Streaming)) :
    survivors g (st :: steps) (l :: left) = l :: survivors g steps left := by
  simp [survivors, h]

namespace Cut

/-- Whether a cut that is for one of some entries is in the same one before an edit, with `seen`
copies in front of them, and after it, with `seen'` in front. -/
structure SteadyBehind (g : FlowGraph) (seen seen' : Nat) (es : List Entry) (cut : Cut) : Prop where
  le : seen' ≤ cut.copy
  landing : landing? (cut.copy - seen) (es.map (Entry.copies cut.componentId)) =
    landing? (cut.copy - seen') (es.map (Entry.copiesAfter g cut.componentId))

namespace SteadyBehind

variable {g : FlowGraph} {seen seen' : Nat} {e : Entry} {es : List Entry} {cut : Cut}

theorem tail (h : cut.SteadyBehind g seen seen' (e :: es))
    (hseen : seen + e.copies cut.componentId ≤ cut.copy) :
    cut.SteadyBehind g (seen + e.copies cut.componentId)
      (seen' + e.copiesAfter g cut.componentId) es := by
  have hle := h.le
  have hbehind : e.copies cut.componentId ≤ cut.copy - seen := by omega
  obtain ⟨hafter, hlanding⟩ := landing?_eq_of_le hbehind h.landing
  rw [Nat.sub_sub, Nat.sub_sub] at hlanding
  exact ⟨by omega, hlanding⟩

theorem head (h : cut.SteadyBehind g seen seen' (e :: es)) (hcopy : cut.copy = seen)
    (he : 0 < e.copies cut.componentId) : cut.copy - seen' < e.copiesAfter g cut.componentId := by
  have hfirst : cut.copy - seen < e.copies cut.componentId := by omega
  exact lt_of_landing?_eq hfirst h.landing

/-- A steady cut of the entry at hand is for a step that stays, and counts just the copies in
front. -/
theorem exists_step (hg : g.IsDistinct) {st : Step}
    (h : cut.SteadyBehind g seen seen' (.step st :: es)) (hcopy : cut.copy = seen)
    (hst : 0 < (Entry.step st).copies cut.componentId) :
    ∃ fresh, g.step? st.id = some fresh ∧ 0 < (Entry.step fresh).copies cut.componentId ∧
      seen' = seen := by
  have hhead := h.head hcopy hst
  cases hfound : g.step? st.id with
  | none =>
      rw [Entry.copiesAfter, Entry.patch?_step_none hfound] at hhead
      exact absurd hhead (Nat.not_lt_zero _)
  | some fresh =>
      have hafter : (Entry.step st).copiesAfter g cut.componentId =
          (Entry.step fresh).copies cut.componentId := by
        rw [Entry.copiesAfter, Entry.patch?_step_some hfound]
        rfl
      have hone := Entry.copies_le_one (hg.step hfound) cut.componentId
      have hle := h.le
      rw [hafter] at hhead
      refine ⟨fresh, rfl, ?_, ?_⟩ <;> omega

end SteadyBehind

/-- Counted behind the copies in front, a cut is made in the next entry that has its component. -/
theorem apply_behind (front rest : List Entry) {st : Step} {w : Streaming}
    (hst : 0 < (Entry.step st).copies w.componentId) :
    Cut.apply ⟨w.componentId, Entry.copiesIn w.componentId front, w.text⟩
        (front ++ .step st :: rest) = front ++ .step (st.shortened w) :: rest := by
  rw [Cut.apply, Cut.inEntries_append _ _ _ _ hst]
  rfl

end Cut

namespace Remnants

variable {g g' : FlowGraph} {seen : ComponentId → Nat} {es : List Entry}
  {left : List (Option Streaming)} {cuts : List Cut}

/-- Made again behind a front of entries, cuts that are steady are made in the entries that they are
for, and in no others. -/
theorem recut (hg : g'.IsDistinct) (h : Remnants g seen es left cuts) (front : List Entry)
    (hsteady : ∀ cut ∈ cuts, cut.SteadyBehind g' (seen cut.componentId)
      (Entry.copiesIn cut.componentId front) es) :
    ∃ es', Conversation.recut cuts (front ++ es.filterMap (Entry.patch? g')) = front ++ es' ∧
      Remnants g' (fun id => Entry.copiesIn id front) es' (survivors g' (Entry.steps es) left)
        cuts := by
  induction h generalizing front with
  | nil seen => exact ⟨[], by simp [Conversation.recut], .nil _⟩
  | @other seen es left cuts e he h ih =>
      have htail : ∀ cut ∈ cuts, cut.SteadyBehind g' (seen cut.componentId)
          (Entry.copiesIn cut.componentId front + e.copiesAfter g' cut.componentId) es := by
        intro cut hcut
        have hcopies := Entry.copies_of_not_step he cut.componentId
        have hseen := h.seen_le cut hcut
        simpa [hcopies] using (hsteady cut hcut).tail (by omega)
      have hsteps : Entry.steps (e :: es) = Entry.steps es := List.filterMap_cons_none he
      rw [hsteps]
      cases hpatch : e.patch? g' with
      | none =>
          rw [List.filterMap_cons_none hpatch]
          exact ih front (by simpa [Entry.copiesAfter, hpatch] using htail)
      | some e' =>
          have he' := Entry.not_step_of_patch? he hpatch
          obtain ⟨es', hrecut, hremnants⟩ :=
            ih (front ++ [e']) (by simpa [Entry.copiesAfter, hpatch] using htail)
          refine ⟨e' :: es', ?_, .other e' he' ?_⟩
          · rw [List.filterMap_cons_some hpatch]
            simpa using hrecut
          · simpa [Entry.copies_of_not_step he'] using hremnants
  | @whole seen es left cuts now hnow h ih =>
      have hsteps : Entry.steps (.step now :: es) = now :: Entry.steps es := rfl
      have htail := fun cut hcut => (hsteady cut hcut).tail (h.seen_le cut hcut)
      rw [hsteps]
      cases hfound : g'.step? now.id with
      | none =>
          have hpatch : (Entry.step now).patch? g' = none := Entry.patch?_step_none hfound
          rw [List.filterMap_cons_none hpatch, survivors_cons_none hfound]
          exact ih front (by simpa [Entry.copiesAfter, hpatch] using htail)
      | some fresh =>
          have hpatch : (Entry.step now).patch? g' = some (.step fresh) :=
            Entry.patch?_step_some hfound
          obtain ⟨es', hrecut, hremnants⟩ :=
            ih (front ++ [.step fresh]) (by simpa [Entry.copiesAfter, hpatch] using htail)
          rw [List.filterMap_cons_some hpatch, survivors_cons_some hfound]
          refine ⟨.step fresh :: es', by simpa using hrecut, ?_⟩
          exact .whole fresh (FlowGraph.step?_id hfound) (by simpa using hremnants)
  | @short seen es left cuts now hnow w hw h ih =>
      obtain ⟨hcut, hcuts⟩ := List.forall_mem_cons.mp hsteady
      obtain ⟨fresh, hfound, hpresent, hcount⟩ := hcut.exists_step hg rfl (by simpa using hw)
      have hpatch : (Entry.step (now.shortened w)).patch? g' = some (.step fresh) :=
        Entry.patch?_step_some hfound
      have htail := fun cut hc => (hcuts cut hc).tail (by simpa using h.seen_le cut hc)
      obtain ⟨es', hrecut, hremnants⟩ :=
        ih (front ++ [.step (fresh.shortened w)]) (by simpa [Entry.copiesAfter, hpatch] using htail)
      have hsteps : Entry.steps (.step (now.shortened w) :: es) =
          now.shortened w :: Entry.steps es := rfl
      rw [hsteps, List.filterMap_cons_some hpatch, survivors_cons_some hfound]
      simp only at hcount
      refine ⟨.step (fresh.shortened w) :: es', ?_, ?_⟩
      · rw [Conversation.recut_cons, ← hcount, Cut.apply_behind front _ hpresent]
        simpa using hrecut
      · rw [← hcount]
        refine .short fresh ?_ w hpresent (by simpa using hremnants)
        exact FlowGraph.step?_id hfound

end Remnants

end Dialogue
