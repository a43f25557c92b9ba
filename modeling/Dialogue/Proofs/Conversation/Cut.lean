import Dialogue.Conversation.Resync
import Dialogue.Proofs.Flow.Index

/-! A cut finds its copy. Copies of a component are counted over the whole of a history, so a cut
that counts those before an entry is made in this entry and nowhere else. It changes texts alone,
and a history that grows behind its copy does not change what it does. -/

namespace Dialogue

attribute [local instance(2000)] Zero.ofOfNat0

def Step.IsDistinct (s : Step) : Prop := (s.components.map Component.id).Nodup

instance (s : Step) : Decidable s.IsDistinct := inferInstanceAs (Decidable (List.Nodup _))

def FlowGraph.IsDistinct (g : FlowGraph) : Prop := ∀ s ∈ g.steps, s.IsDistinct

instance (g : FlowGraph) : Decidable g.IsDistinct :=
  inferInstanceAs (Decidable (∀ s ∈ g.steps, s.IsDistinct))

theorem FlowGraph.IsDistinct.step {g : FlowGraph} (h : g.IsDistinct) {id : StepId} {s : Step}
    (hs : g.step? id = some s) : s.IsDistinct :=
  h s (step?_eq_some hs).1

namespace Entry

def copiesIn (id : ComponentId) (es : List Entry) : Nat := (es.map (copies id)).sum

@[simp] theorem copiesIn_nil (id : ComponentId) : copiesIn id [] = 0 := rfl

@[simp] theorem copiesIn_cons (id : ComponentId) (e : Entry) (es : List Entry) :
    copiesIn id (e :: es) = e.copies id + copiesIn id es := by
  simp [copiesIn]

@[simp] theorem copiesIn_append (id : ComponentId) (es es' : List Entry) :
    copiesIn id (es ++ es') = copiesIn id es + copiesIn id es' := by
  simp [copiesIn]

theorem copies_of_isInterceptor {e : Entry} {question : String}
    (h : e.isInterceptor question = true) (id : ComponentId) : e.copies id = 0 := by
  obtain ⟨i, rfl, -⟩ := exists_of_isInterceptor h
  rfl

theorem copiesIn_eraseP (id : ComponentId) (question : String) (es : List Entry) :
    copiesIn id (es.eraseP (isInterceptor question)) = copiesIn id es := by
  induction es with
  | nil => rfl
  | cons e rest ih =>
      cases he : e.isInterceptor question with
      | true => simp [he, copies_of_isInterceptor he]
      | false => simp [he, ih]

@[simp] theorem components_step (s : Step) : (step s).components = s.components := rfl

theorem copies_eq_count (id : ComponentId) (e : Entry) :
    e.copies id = (e.components.map Component.id).count id := by
  rw [copies, List.count_eq_countP, List.countP_map]
  rfl

theorem copies_of_isDistinct {s : Step} (h : s.IsDistinct) {d : Component} (hd : d ∈ s.components) :
    (step s).copies d.id = 1 := by
  rw [copies_eq_count, components_step, List.Nodup.count h, if_pos (List.mem_map_of_mem hd)]

theorem copies_le_one {s : Step} (h : s.IsDistinct) (id : ComponentId) :
    (step s).copies id ≤ 1 := by
  rw [copies_eq_count, components_step, List.Nodup.count h]
  split <;> omega

theorem map_id_components_cut (id : ComponentId) (text : String) (n : Nat) (e : Entry) :
    (e.cut id text n).components.map Component.id = e.components.map Component.id := by
  cases e with
  | step s =>
      cases s with
      | turn step cs => exact Cut.map_id_inComponents id text n cs
      | _ => rfl
  | _ => rfl

@[simp] theorem copies_cut (id' id : ComponentId) (text : String) (n : Nat) (e : Entry) :
    (e.cut id text n).copies id' = e.copies id' := by
  rw [copies_eq_count, map_id_components_cut, ← copies_eq_count]

@[simp] theorem interceptor?_cut (id : ComponentId) (text : String) (n : Nat) (e : Entry) :
    (e.cut id text n).interceptor? = e.interceptor? := by
  cases e <;> rfl

@[simp] theorem patch?_cut (g : FlowGraph) (id : ComponentId) (text : String) (n : Nat)
    (e : Entry) : (e.cut id text n).patch? g = e.patch? g := by
  cases e with
  | step s => cases s <;> rfl
  | _ => rfl

@[simp] theorem gains_cut (g : FlowGraph) (id : ComponentId) (text : String) (n : Nat)
    (e : Entry) : (e.cut id text n).gains g = e.gains g := by
  have hids := map_id_components_cut id text n e
  cases e with
  | step s =>
      have hid : (s.withComponents (Cut.inComponents id text n s.components)).id = s.id := by
        cases s <;> rfl
      simp only [cut, components_step] at hids
      simp only [cut, gains, hids, hid]
  | _ => rfl

end Entry

namespace Cut

theorem inComponents_append {id : ComponentId} (text : String) (before : List Component)
    {d : Component} (after : List Component) (hbefore : ∀ c ∈ before, c.id ≠ id) (hd : d.id = id) :
    inComponents id text 0 (before ++ d :: after) =
      before ++ d.withStreamedText text :: after := by
  induction before with
  | nil => simp [inComponents, hd]
  | cons c rest ih =>
      obtain ⟨hc, hrest⟩ := List.forall_mem_cons.mp hbefore
      simp [inComponents, hc, ih hrest]

theorem inComponents_cases (id : ComponentId) (text : String) (n : Nat) (cs : List Component) :
    inComponents id text n cs = cs ∨ ∃ before d after, cs = before ++ d :: after ∧ d.id = id ∧
      inComponents id text n cs = before ++ d.withStreamedText text :: after := by
  fun_induction inComponents id text n cs with
  | case1 n => exact .inl rfl
  | case2 c rest hc => exact .inr ⟨[], c, rest, rfl, hc, rfl⟩
  | case3 c rest hc n ih | case4 n c rest hc ih =>
      rcases ih with ih | ⟨before, d, after, hrest, hd, ih⟩
      · exact .inl (congrArg (List.cons c) ih)
      · exact .inr ⟨c :: before, d, after, congrArg (List.cons c) hrest, hd,
          congrArg (List.cons c) ih⟩

/-- A cut changes one component of one turn in a history, or nothing. -/
theorem inEntries_cases (id : ComponentId) (text : String) (n : Nat) (es : List Entry) :
    inEntries id text n es = es ∨ ∃ front step before d after back,
      es = front ++ .step (.turn step (before ++ d :: after)) :: back ∧ d.id = id ∧
        inEntries id text n es =
          front ++ .step (.turn step (before ++ d.withStreamedText text :: after)) :: back := by
  fun_induction inEntries id text n es with
  | case1 n => exact .inl rfl
  | case2 n e rest hn =>
      have hshown : e.components ≠ [] := by
        rintro he
        simp [Entry.copies, he] at hn
      cases e with
      | step s =>
          cases s with
          | turn step cs =>
              rcases inComponents_cases id text n cs with h | ⟨before, d, after, hcs, hd, h⟩
              · exact .inl (by simp [Entry.cut, Step.components, Step.withComponents, h])
              · exact .inr ⟨[], step, before, d, after, rest, by rw [hcs]; rfl, hd, by
                  simp [Entry.cut, Step.components, Step.withComponents, h]⟩
          | _ => exact absurd rfl hshown
      | _ => exact absurd rfl hshown
  | case3 n e rest hn ih =>
      rcases ih with ih | ⟨front, step, before, d, after, back, hrest, hd, ih⟩
      · exact .inl (congrArg (List.cons e) ih)
      · exact .inr ⟨e :: front, step, before, d, after, back, congrArg (List.cons e) hrest, hd,
          congrArg (List.cons e) ih⟩

/-- The cut whose count is that of the copies before an entry is made in this entry. -/
theorem inEntries_append (id : ComponentId) (text : String) (front : List Entry) {e : Entry}
    (back : List Entry) (he : 0 < e.copies id) :
    inEntries id text (Entry.copiesIn id front) (front ++ e :: back) =
      front ++ e.cut id text 0 :: back := by
  induction front with
  | nil => simp [inEntries, he]
  | cons f rest ih =>
      have hbehind : ¬ f.copies id + Entry.copiesIn id rest < f.copies id := by omega
      simp only [Entry.copiesIn_cons, List.cons_append, inEntries, hbehind, if_false,
        Nat.add_sub_cancel_left, ih]

/-- What a cut of an entry leaves as it is, a cut of a history leaves as it is too. -/
theorem map_inEntries {β : Type} {f : Entry → β}
    (hf : ∀ id text n e, f (Entry.cut id text n e) = f e) (id : ComponentId) (text : String)
    (n : Nat) (es : List Entry) : (inEntries id text n es).map f = es.map f := by
  fun_induction inEntries id text n es with
  | case1 n => rfl
  | case2 n e rest hn => rw [List.map_cons, List.map_cons, hf]
  | case3 n e rest hn ih => rw [List.map_cons, List.map_cons, ih]

/-- Whether the copy that is meant is in a history. -/
def LandsIn (history : List Entry) (cut : Cut) : Prop :=
  cut.copy < Entry.copiesIn cut.componentId history

/-- A cut is made where its copy is, whatever comes behind. -/
theorem LandsIn.apply_append {history : List Entry} {cut : Cut} (h : cut.LandsIn history)
    (later : List Entry) : cut.apply (history ++ later) = cut.apply history ++ later := by
  obtain ⟨id, n, text⟩ := cut
  unfold LandsIn at h
  unfold apply
  fun_induction inEntries id text n history with
  | case1 n => cases h
  | case2 n e rest hn => simp [inEntries, hn]
  | case3 n e rest hn ih =>
      have hrest := ih (by simp at h ⊢; omega)
      simp [inEntries, hn, hrest]

theorem inEntries_eraseP (id : ComponentId) (text : String) (n : Nat) (question : String)
    (es : List Entry) :
    inEntries id text n (es.eraseP (Entry.isInterceptor question)) =
      (inEntries id text n es).eraseP (Entry.isInterceptor question) := by
  fun_induction inEntries id text n es with
  | case1 n => rfl
  | case2 n e rest hn =>
      have he : e.isInterceptor question = false := by
        refine Bool.eq_false_iff.mpr fun h => ?_
        rw [Entry.copies_of_isInterceptor h] at hn
        cases hn
      have hcut : (e.cut id text n).isInterceptor question = false := by
        simpa [Entry.isInterceptor] using he
      simp [he, hcut, inEntries, hn]
  | case3 n e rest hn ih =>
      cases he : e.isInterceptor question with
      | true => simp [he, Entry.copies_of_isInterceptor he]
      | false => simp [he, inEntries, hn, ih]

theorem ofNewest?_append {s : Step} (hs : s.IsDistinct) {d : Component} (hd : d ∈ s.components)
    (front : List Entry) (text : String) :
    ofNewest? (front ++ [.step s]) d.id text =
      some ⟨d.id, Entry.copiesIn d.id front, text⟩ := by
  have hcopies : ((front ++ [Entry.step s]).map (Entry.copies d.id)).sum =
      Entry.copiesIn d.id front + 1 := by
    simp [Entry.copiesIn, Entry.copies_of_isDistinct hs hd]
  simp only [ofNewest?, hcopies]

theorem landsIn_of_ofNewest? {history : List Entry} {id : ComponentId} {text : String} {cut : Cut}
    (h : ofNewest? history id text = some cut) : cut.LandsIn history := by
  unfold ofNewest? at h
  split at h
  · cases h
  · next n hcopies =>
    cases h
    exact Nat.lt_of_lt_of_eq (Nat.lt_succ_self n) hcopies.symm

end Cut

namespace Conversation

theorem recut_cons (cut : Cut) (cuts : List Cut) (history : List Entry) :
    recut (cut :: cuts) history = recut cuts (cut.apply history) := rfl

section

variable {β : Type}

theorem map_recut {f : Entry → β} (hf : ∀ id text n e, f (Entry.cut id text n e) = f e)
    (cuts : List Cut) (es : List Entry) : (recut cuts es).map f = es.map f := by
  induction cuts generalizing es with
  | nil => rfl
  | cons cut rest ih => exact (ih (cut.apply es)).trans (Cut.map_inEntries hf _ _ _ es)

theorem filterMap_recut {f : Entry → Option β}
    (hf : ∀ id text n e, f (Entry.cut id text n e) = f e) (cuts : List Cut) (es : List Entry) :
    (recut cuts es).filterMap f = es.filterMap f := by
  have hmap : ∀ es : List Entry, es.filterMap f = (es.map f).filterMap id := fun es => by
    rw [List.filterMap_map]
    rfl
  rw [hmap, hmap, map_recut hf]

theorem flatMap_recut {f : Entry → List β} (hf : ∀ id text n e, f (Entry.cut id text n e) = f e)
    (cuts : List Cut) (es : List Entry) : (recut cuts es).flatMap f = es.flatMap f := by
  rw [List.flatMap_def, List.flatMap_def, map_recut hf]

theorem countP_recut {f : Entry → Bool} (hf : ∀ id text n e, f (Entry.cut id text n e) = f e)
    (cuts : List Cut) (es : List Entry) : (recut cuts es).countP f = es.countP f := by
  have hmap : ∀ es : List Entry, es.countP f = (es.map f).countP id := fun es => by
    rw [List.countP_map]
    rfl
  rw [hmap, hmap, map_recut hf]

/-- What holds of all entries, and is not changed by a cut, holds of them after the cuts. -/
theorem forall_mem_recut {f : Entry → Bool} (hf : ∀ id text n e, f (Entry.cut id text n e) = f e)
    (cuts : List Cut) {es : List Entry} (h : ∀ e ∈ es, f e = true) :
    ∀ e ∈ recut cuts es, f e = true := by
  have hlength : (recut cuts es).length = es.length := by
    simpa using congrArg List.length (map_recut (f := fun _ => ()) (fun _ _ _ _ => rfl) cuts es)
  rw [← List.countP_eq_length, countP_recut hf, hlength]
  exact List.countP_eq_length.mpr h

end

theorem copiesIn_recut (id : ComponentId) (cuts : List Cut) (es : List Entry) :
    Entry.copiesIn id (recut cuts es) = Entry.copiesIn id es :=
  congrArg List.sum (map_recut (Entry.copies_cut id) cuts es)

theorem landsIn_recut {cut : Cut} {es : List Entry} (h : cut.LandsIn es) (cuts : List Cut) :
    cut.LandsIn (recut cuts es) :=
  Nat.lt_of_lt_of_eq h (copiesIn_recut cut.componentId cuts es).symm

/-- Cuts that are all of copies in a history leave alone what comes behind it. -/
theorem recut_append_of_landsIn {cuts : List Cut} {es : List Entry}
    (h : ∀ cut ∈ cuts, cut.LandsIn es) (later : List Entry) :
    recut cuts (es ++ later) = recut cuts es ++ later := by
  induction cuts generalizing es with
  | nil => rfl
  | cons cut rest ih =>
      obtain ⟨hcut, hrest⟩ := List.forall_mem_cons.mp h
      rw [recut_cons, hcut.apply_append later]
      exact ih fun cut' hcut' => landsIn_recut (hrest cut' hcut') [cut]

theorem recut_eraseP (cuts : List Cut) (id : String) (es : List Entry) :
    recut cuts (es.eraseP (Entry.isInterceptor id)) =
      (recut cuts es).eraseP (Entry.isInterceptor id) := by
  induction cuts generalizing es with
  | nil => rfl
  | cons cut rest ih =>
      rw [recut_cons, recut_cons, ← ih, Cut.apply, Cut.apply, Cut.inEntries_eraseP]

/-- A stop makes its cut, if it makes one, and says that it was there. -/
theorem history_halt (c : Conversation) (marker : Feedback) :
    (c.halt marker).history = recut c.cut?.toList c.history ++ [.feedback marker] := by
  unfold halt
  cases c.cut? <;> rfl

end Conversation

end Dialogue
