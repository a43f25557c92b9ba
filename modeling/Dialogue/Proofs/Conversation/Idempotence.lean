import Dialogue.Proofs.Session.SameFlow

/-! An edit settles a conversation. What it leaves of the entries is as the flow has it, but for
texts that were cut, and what it leaves visible is in history. So the same edit made again finds
nothing to do. -/

namespace Dialogue

namespace Entry

variable {g : FlowGraph}

/-- What an edit leaves of an entry is as the flow has it. -/
theorem isIn_of_patch? {e e' : Entry} (h : e.patch? g = some e') : e'.IsIn g := by
  cases e' with
  | step s =>
      obtain ⟨old, -, -, hfound⟩ := step?_of_patch? h
      exact hfound
  | interceptor i =>
      have hleft : .interceptor i ∈ [e].filterMap (patch? g) := by simp [h]
      exact isOf_of_mem_questions_patch (mem_questions.mpr hleft)
  | _ => trivial

theorem isIn_of_mem_patched {es : List Entry} {e : Entry} (h : e ∈ es.filterMap (patch? g)) :
    e.IsIn g := by
  obtain ⟨old, -, hold⟩ := List.mem_filterMap.mp h
  exact isIn_of_patch? hold

theorem filterMap_patch?_patched (es : List Entry) :
    (es.filterMap (patch? g)).filterMap (patch? g) = es.filterMap (patch? g) :=
  filterMap_patch?_of_isIn fun _ he => isIn_of_mem_patched he

theorem isPatchable_of_patch? {e e' : Entry} (h : e.patch? g = some e') :
    e'.isPatchable = e.isPatchable := by
  cases e with
  | step s =>
      obtain ⟨fresh, -, rfl⟩ := Option.map_eq_some_iff.mp h
      rfl
  | interceptor i =>
      simp only [patch?] at h
      split at h <;> cases h
      rfl
  | _ =>
      cases h
      rfl

theorem isPatchable_cut (id : ComponentId) (text : String) (n : Nat) (e : Entry) :
    (e.cut id text n).isPatchable = e.isPatchable := by
  cases e <;> rfl

theorem countP_patched (es : List Entry) :
    (es.filterMap (patch? g)).countP isPatchable =
      (es.filter isPatchable).countP fun e => (e.patch? g).isSome := by
  rw [List.countP_filterMap, List.countP_filter]
  refine List.countP_congr fun e _ => ?_
  cases h : e.patch? g with
  | none => simp
  | some e' => simp [isPatchable_of_patch? h]

end Entry

namespace Conversation

variable (c : Conversation) (g : FlowGraph)

theorem patchedHistory_resync : (c.resync g).patchedHistory g = c.patchedHistory g := by
  have hpatched : (c.patchedHistory g).filterMap (Entry.patch? g) =
      c.history.filterMap (Entry.patch? g) := by
    rw [patchedHistory, filterMap_recut (Entry.patch?_cut g), Entry.filterMap_patch?_patched]
  exact congrArg (recut c.cuts) hpatched

/-- Entries gain nothing once they are as the flow has them. -/
theorem gains_patchedHistory : (c.patchedHistory g).flatMap (Entry.gains g) = [] := by
  rw [patchedHistory, flatMap_recut (Entry.gains_cut g), List.flatMap_eq_nil_iff]
  exact fun e he => Entry.gains_of_isIn (Entry.isIn_of_mem_patched he)

theorem mem_shown_of_mem_patchedVisible {id : ComponentId} (h : id ∈ c.patchedVisible g) :
    id ∈ Entry.shown (c.patchedHistory g) := by
  rcases mem_patchedVisible.mp h with ⟨-, hshown⟩ | ⟨-, hgained⟩
  · exact hshown
  · exact mem_shown_of_mem_gains hgained

theorem patchedVisible_resync : (c.resync g).patchedVisible g = c.patchedVisible g := by
  have hgains : (c.resync g).history.flatMap (Entry.gains g) = [] := c.gains_patchedHistory g
  have hvisible : (c.resync g).visible = c.patchedVisible g := rfl
  have hkept : (c.patchedVisible g).filter (Entry.shown (c.patchedHistory g)).contains =
      c.patchedVisible g :=
    NameSet.filter_eq_self fun id hid =>
      List.contains_iff_mem.mpr (c.mem_shown_of_mem_patchedVisible g hid)
  rw [Entry.shown] at hkept
  rw [patchedVisible, patchedHistory_resync, hgains, hvisible, hkept, NameSet.insertAll_nil,
    ite_self]

/-- A conversation that waits after an edit still has a question. -/
theorem interceptors_resync_ne_nil (h : (c.resync g).phase = .awaitingInterceptor) :
    (c.resync g).interceptors ≠ [] := by
  simp only [resync] at h
  split at h
  · next hasks =>
    obtain ⟨e, he, hquestion⟩ := List.any_eq_true.mp hasks
    obtain ⟨i, hi⟩ := Option.isSome_iff_exists.mp hquestion
    exact List.ne_nil_of_mem (List.mem_filterMap.mpr ⟨e, he, hi⟩)
  · exact absurd h c.phaseWithout_ne

theorem resync_resync : (c.resync g).resync g = c.resync g := by
  refine resync_eq_self (c.patchedHistory_resync g) (Entry.filterMap_patch?_patched c.queue)
    (c.patchedVisible_resync g) ?_ (c.interceptors_resync_ne_nil g)
  intro id hid
  exact (Option.mem_filter_iff.mp hid).2

theorem isSome_patch?_of_mem_resync :
    ∀ e ∈ (c.resync g).history ++ (c.resync g).queue, (e.patch? g).isSome = true := by
  have hpatched : ∀ es : List Entry, ∀ e ∈ es.filterMap (Entry.patch? g),
      (e.patch? g).isSome = true := fun es e he => by
    rw [Entry.patch?_of_isIn (Entry.isIn_of_mem_patched he)]
    rfl
  refine List.forall_mem_append.mpr ⟨?_, hpatched c.queue⟩
  exact forall_mem_recut (fun id text n e => by rw [Entry.patch?_cut]) c.cuts (hpatched c.history)

/-- What an edit counts, it counts again if it is made again. -/
theorem patched_resync :
    ((c.resync g).resyncReport g).patched = (c.resyncReport g).patched := by
  have hentries : ((c.resync g).history ++ (c.resync g).queue).countP Entry.isPatchable =
      ((c.history ++ c.queue).filterMap (Entry.patch? g)).countP Entry.isPatchable := by
    rw [List.filterMap_append, List.countP_append, List.countP_append]
    exact congrArg (· + _) (countP_recut Entry.isPatchable_cut c.cuts _)
  have hagain : (((c.resync g).history ++ (c.resync g).queue).filter Entry.isPatchable).countP
      (fun e => (e.patch? g).isSome) =
      ((c.resync g).history ++ (c.resync g).queue).countP Entry.isPatchable := by
    rw [List.countP_filter]
    exact List.countP_congr fun e he => by simp [c.isSome_patch?_of_mem_resync g e he]
  simp only [resyncReport, hagain, hentries, Entry.countP_patched]

/-- An edit that is made twice does no more than once: the conversation stays as the first has left
it, nothing is dropped any more, and as many entries are counted as patched as the first time. -/
theorem resync_idempotent :
    (c.resync g).resync g = c.resync g ∧
      ((c.resync g).resyncReport g).dropped = 0 ∧
      ((c.resync g).resyncReport g).patched = (c.resyncReport g).patched :=
  ⟨c.resync_resync g, dropped_eq_zero_of_forall (c.isSome_patch?_of_mem_resync g),
    c.patched_resync g⟩

end Conversation

end Dialogue
