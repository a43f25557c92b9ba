import Dialogue.Proofs.Session.Conditions
import Dialogue.Proofs.Session.Visible

/-! An edit that leaves the flow as it is leaves the conversation as it is. History is what cuts
have left of whole entries, and the cut that comes later leaves the earlier ones where they are; so
the entries as the flow has them, cut again, are the entries that were there. -/

namespace Dialogue

theorem NameSet.filter_eq_self {s : NameSet} {p : String → Bool} (h : ∀ n ∈ s, p n = true) :
    s.filter p = s := by
  obtain ⟨names, increasing⟩ := s
  simp only [filter, NameSet.mk.injEq]
  exact List.filter_eq_self.mpr h

namespace Entry

/-- Whether the entry, if it comes from the flow, is as the flow has it. -/
def IsIn (g : FlowGraph) : Entry → Prop
  | step s => g.step? s.id = some s
  | interceptor i => i.IsOf g
  | _ => True

theorem patch?_of_isIn {g : FlowGraph} {e : Entry} (h : e.IsIn g) : e.patch? g = some e := by
  cases e with
  | step s => exact patch?_step_some h
  | interceptor i =>
      have hfound : g.step? i.stepId = some (.condition i.stepId i.branches) := h
      simp [patch?, hfound]
  | _ => rfl

theorem gains_of_isIn {g : FlowGraph} {e : Entry} (h : e.IsIn g) : e.gains g = [] := by
  cases e with
  | step s =>
      have hfound : g.step? s.id = some s := h
      simp only [gains, hfound, List.filter_eq_nil_iff]
      intro id hid
      simp [hid]
  | _ => rfl

theorem filterMap_patch?_of_isIn {g : FlowGraph} {es : List Entry} (h : ∀ e ∈ es, e.IsIn g) :
    es.filterMap (patch? g) = es := by
  rw [List.filterMap_congr fun e he => patch?_of_isIn (h e he)]
  exact List.filterMap_some

end Entry

/-- Whether a history is what cuts have left of whole entries, each made in one of these, and the
steps among these are as the flow has them. -/
structure Entry.IsCutFrom (g : FlowGraph) (cuts : List Cut) (whole history : List Entry) :
    Prop where
  history : history = Conversation.recut cuts whole
  lands : ∀ cut ∈ cuts, cut.LandsIn whole
  steps : ∀ s, .step s ∈ whole → g.step? s.id = some s

namespace Entry.IsCutFrom

variable {g : FlowGraph} {cuts : List Cut} {whole history : List Entry}

theorem concat (h : IsCutFrom g cuts whole history) {e : Entry}
    (he : ∀ s, e = .step s → g.step? s.id = some s) :
    IsCutFrom g cuts (whole ++ [e]) (history ++ [e]) := by
  refine ⟨?_, fun cut hcut => ?_, fun s hs => ?_⟩
  · rw [Conversation.recut_append_of_landsIn h.lands, h.history]
  · rw [Cut.LandsIn, copiesIn_append]
    exact Nat.lt_add_right _ (h.lands cut hcut)
  · rcases List.mem_append.mp hs with hs | hs
    · exact h.steps s hs
    · exact he s (List.mem_singleton.mp hs).symm

theorem eraseP (h : IsCutFrom g cuts whole history) (id : String) :
    IsCutFrom g cuts (whole.eraseP (isInterceptor id)) (history.eraseP (isInterceptor id)) := by
  refine ⟨?_, fun cut hcut => ?_, fun s hs => h.steps s (List.mem_of_mem_eraseP hs)⟩
  · rw [Conversation.recut_eraseP, h.history]
  · rw [Cut.LandsIn, copiesIn_eraseP]
    exact h.lands cut hcut

/-- A stop cuts what earlier stops have left, where it finds the copy that it means. -/
theorem recut (h : IsCutFrom g cuts whole history) {more : List Cut}
    (hmore : ∀ cut ∈ more, cut.LandsIn history) :
    IsCutFrom g (cuts ++ more) whole (Conversation.recut more history) := by
  refine ⟨?_, List.forall_mem_append.mpr ⟨h.lands, fun cut hcut => ?_⟩, h.steps⟩
  · rw [h.history, Conversation.recut, Conversation.recut, Conversation.recut, List.foldl_append]
  · have hlands := hmore cut hcut
    rwa [h.history, Cut.LandsIn, Conversation.copiesIn_recut] at hlands

theorem isIn (h : IsCutFrom g cuts whole history) (hasks : ∀ i ∈ questions history, i.IsOf g) :
    ∀ e ∈ whole, e.IsIn g := by
  intro e he
  cases e with
  | step s => exact h.steps s he
  | interceptor i =>
      rw [h.history, questions_recut] at hasks
      exact hasks i (mem_questions.mpr he)
  | _ => trivial

/-- Entries as the flow has them, cut again, are the entries that were there. -/
theorem recut_patched (h : IsCutFrom g cuts whole history)
    (hasks : ∀ i ∈ questions history, i.IsOf g) :
    Conversation.recut cuts (history.filterMap (patch? g)) = history := by
  rw [h.history, Conversation.filterMap_recut (patch?_cut g),
    filterMap_patch?_of_isIn (h.isIn hasks)]

theorem isSome_patch? (h : IsCutFrom g cuts whole history)
    (hasks : ∀ i ∈ questions history, i.IsOf g) : ∀ e ∈ history, (e.patch? g).isSome = true := by
  rw [h.history]
  refine Conversation.forall_mem_recut (fun id text n e => by rw [patch?_cut]) cuts fun e he => ?_
  rw [patch?_of_isIn (h.isIn hasks e he)]
  rfl

theorem gains (h : IsCutFrom g cuts whole history)
    (hasks : ∀ i ∈ questions history, i.IsOf g) : history.flatMap (Entry.gains g) = [] := by
  rw [h.history, Conversation.flatMap_recut (gains_cut g), List.flatMap_eq_nil_iff]
  exact fun e he => gains_of_isIn (h.isIn hasks e he)

end Entry.IsCutFrom

namespace Conversation

/-- Whether a conversation is up to date with the flow, while its latest run waits at `p`: history
but for what was cut, what is on its way, and what is visible. -/
structure Current (g : FlowGraph) (c : Conversation) (p : Option Pause) : Prop where
  history : ∃ whole, Entry.IsCutFrom g c.cuts whole c.history
  coming : ∀ s, .step s ∈ c.coming p → g.step? s.id = some s
  shows : ∃ hidden, c.Shows hidden [] p

section

variable {g : FlowGraph} {c c' : Conversation}

theorem current_empty (g : FlowGraph) : empty.Current g none :=
  ⟨⟨[], rfl, nofun, nofun⟩, nofun, [], nofun, nofun, nofun⟩

theorem Current.stride {p : Pause} {p' : Option Pause} (h : c.Current g (some p))
    (hs : Stride c p c' p') : c'.Current g p' := by
  obtain ⟨⟨whole, hwhole⟩, hcoming, hidden, hshows⟩ := h
  refine ⟨?_, fun s hmem => hcoming s (hs.coming_subset hmem), hidden, hshows.stride hs⟩
  cases hs with
  | commit e rest hqueue hturn =>
      refine ⟨_, hwhole.concat fun s he => hcoming s (List.mem_append_right _ ?_)⟩
      rw [hqueue, he]
      exact List.mem_cons_self
  | openTurn id components =>
      refine ⟨_, hwhole.concat fun s he => hcoming s (List.mem_append_left _ ?_)⟩
      rw [← he]
      exact List.mem_cons_self
  | _ => exact ⟨whole, hwhole⟩

theorem Current.shift {p p' : Option Pause} (h : c.Current g p)
    (hs : Shift true (Entry.ComesFrom g) c p c' p') : c'.Current g p' := by
  obtain ⟨⟨whole, hwhole⟩, hcoming, hidden, hshows⟩ := h
  refine ⟨?_, fun s hmem => (hs.step_mem_coming hmem).elim (hcoming s) id, hidden,
    hshows.shift hs⟩
  cases hs with
  | take id i c' htake =>
      rcases take?_eq_some htake with ⟨-, rfl⟩ | ⟨-, rfl⟩
      · exact ⟨_, hwhole.eraseP id⟩
      · exact ⟨whole, hwhole⟩
  | commitShown e hentry hplace =>
      refine ⟨_, hwhole.concat fun s he => ?_⟩
      rw [he] at hentry
      exact hentry.step?_eq_some
  | _ => exact ⟨whole, hwhole⟩

/-- The cut of a stop is made in what there is of the component that it means. -/
theorem landsIn_of_cut? {cut : Cut} (h : c.cut? = some cut) : cut.LandsIn c.history := by
  obtain ⟨w, -, hcut⟩ := Option.bind_eq_some_iff.mp h
  exact Cut.landsIn_of_ofNewest? hcut

theorem Current.halt {p : Option Pause} (h : c.Current g p) (marker : Feedback) :
    (c.halt marker).Current g none := by
  obtain ⟨⟨whole, hwhole⟩, -, hidden, hshows⟩ := h
  refine ⟨⟨whole ++ [.feedback marker], ?_⟩, nofun, _, hshows.halt marker⟩
  rw [history_halt]
  refine (hwhole.recut fun cut hcut => landsIn_of_cut? ?_).concat nofun
  exact Option.mem_toList.mp hcut

section Resync

variable {p : Option Pause} (h : c.Current g p) (hasks : c.AsksIn g)

include h hasks

theorem Current.patchedHistory_eq : c.patchedHistory g = c.history := by
  obtain ⟨whole, hwhole⟩ := h.history
  exact hwhole.recut_patched fun i hi => hasks i (c.interceptors_eq ▸ List.mem_append_left _ hi)

theorem Current.isIn_of_mem_queue : ∀ e ∈ c.queue, e.IsIn g := by
  intro e he
  cases e with
  | step s => exact h.coming s (List.mem_append_right _ he)
  | interceptor i => exact hasks i (mem_interceptors.mpr (.inr he))
  | _ => trivial

theorem Current.patchedVisible_eq : c.patchedVisible g = c.visible := by
  obtain ⟨whole, hwhole⟩ := h.history
  obtain ⟨hidden, hshows⟩ := h.shows
  have hgains : c.history.flatMap (Entry.gains g) = [] :=
    hwhole.gains fun i hi => hasks i (c.interceptors_eq ▸ List.mem_append_left _ hi)
  have hkept : c.visible.filter (Entry.shown c.history).contains = c.visible :=
    NameSet.filter_eq_self fun id hid =>
      List.contains_iff_mem.mpr ((hshows.visible id hid).resolve_right List.not_mem_nil)
  simp only [Entry.shown] at hkept
  simp only [patchedVisible, h.patchedHistory_eq hasks, hgains, NameSet.insertAll_nil, hkept,
    ite_self]

/-- A conversation that is up to date stays as it is. -/
theorem Current.resync_eq (hcursor : ∀ id ∈ c.cursor, g.contains id = true)
    (hwaiting : c.phase = .awaitingInterceptor → c.interceptors ≠ []) : c.resync g = c :=
  resync_eq_self (h.patchedHistory_eq hasks)
    (Entry.filterMap_patch?_of_isIn (h.isIn_of_mem_queue hasks)) (h.patchedVisible_eq hasks)
    hcursor hwaiting

theorem Current.dropped_eq_zero : (c.resyncReport g).dropped = 0 := by
  obtain ⟨whole, hwhole⟩ := h.history
  refine dropped_eq_zero_of_forall (List.forall_mem_append.mpr
    ⟨hwhole.isSome_patch? fun i hi => ?_, fun e he => ?_⟩)
  · exact hasks i (c.interceptors_eq ▸ List.mem_append_left _ hi)
  · rw [Entry.patch?_of_isIn (h.isIn_of_mem_queue hasks e he)]
    rfl

end Resync

end

end Conversation

namespace Session

theorem session_setGraph_of_resync_eq {s : Session} (h : s.state.resync s.graph = s.state) :
    (s.setGraph s.graph).session = s := by
  simp only [setGraph, h]

/-- Whatever was delivered and stopped before, an edit to the same flow changes nothing of a session
that has had no other edit, and drops nothing. The cursor must be of a step of the flow and the
pending question of one of its conditions; a caller can have named others in a click or an answer.
-/
theorem same_flow_changes_nothing (graph : FlowGraph) (config : Config) (mint : Mint)
    (moves : List Move) (hedits : ∀ g, .setGraph g ∉ moves) :
    let s := (ofGraph graph config mint).after moves
    (∀ id ∈ s.state.cursor, graph.contains id = true) →
      (∀ i ∈ s.state.pending?, graph.step? i.stepId = some (.condition i.stepId i.branches)) →
        (s.setGraph graph).session = s ∧ (s.setGraph graph).events = [] ∧
          (s.setGraph graph).result.dropped = 0 := by
  intro s hcursor hpending
  have hfresh : (ofGraph graph config mint).Sound := sound_ofGraph ..
  obtain ⟨hgraph, hcurrent⟩ := hfresh.unedited_induction (I := Conversation.Current graph) hedits
    (.inl rfl) (fun hc => hc.shift) (fun hc => hc.stride) (fun marker hc => hc.halt marker)
    (Conversation.current_empty graph) (Conversation.current_empty graph)
  have hsame : s.graph = graph := hgraph
  have honce : s.state.AsksOnce := asksOnce_after moves Conversation.asksOnce_empty
  have hasks : s.state.AsksIn graph := by
    intro i hi
    obtain ⟨j, hj⟩ := List.length_eq_one_iff.mp
      (Nat.le_antisymm honce.single (List.length_pos_of_mem hi))
    have hpending : j.IsOf graph := hpending j (by simp [Conversation.pending?, hj])
    rw [hj] at hi
    rwa [List.mem_singleton.mp hi]
  have hwaiting : s.state.phase = .awaitingInterceptor → s.state.interceptors ≠ [] := by
    intro hp
    obtain ⟨i, hi⟩ := honce.waiting hp
    exact List.ne_nil_of_mem (Conversation.mem_interceptors.mpr (.inl hi))
  have hstate : s.state.resync graph = s.state := hcurrent.resync_eq hasks hcursor hwaiting
  have hsession : (s.setGraph s.graph).session = s :=
    session_setGraph_of_resync_eq (hsame.symm ▸ hstate)
  rw [hsame] at hsession
  exact ⟨hsession, rfl, hcurrent.dropped_eq_zero hasks⟩

/-- The greeting was stopped after its first letter, and is on its way again as far. -/
theorem same_flow_changes_nothing_welcome :
    let s := (ofGraph welcome (.standard "s") (.ofNonce "n")).after
      (.act .start true :: List.replicate 3 (.proceed ⟨1⟩) ++
        [.stop default, .act .start true] ++ List.replicate 3 (.proceed ⟨3⟩))
    s.state.cuts = [⟨"h", 0, "H"⟩] ∧ s.state.streaming = some ⟨"h", "H"⟩ ∧
      s.state.pending?.isSome = true ∧ (s.setGraph welcome).session = s ∧
      (s.setGraph welcome).result.dropped = 0 := by
  intro s
  have h := same_flow_changes_nothing welcome (.standard "s") (.ofNonce "n")
    (.act .start true :: List.replicate 3 (.proceed ⟨1⟩) ++
      [.stop default, .act .start true] ++ List.replicate 3 (.proceed ⟨3⟩)) (fun g => by simp)
    (by decide +kernel) (by decide +kernel)
  exact ⟨by decide +kernel, by decide +kernel, by decide +kernel, h.1, h.2.2⟩

/-- A question that a caller has made up for a step that the flow lacks goes, though the flow stays
the same. -/
theorem same_flow_drops_stray_question :
    let stray : Choice :=
      ⟨"nowhere", "mood", "good", [(Branch.plain "b").guardedBy "name" "Ada"], "interceptor-n-0"⟩
    let s := (ofGraph welcome (.instant "s") (.ofNonce "n")).after
      [.act .start false, .act (.resolve stray) false]
    s.state.cursor = some "mood" ∧ welcome.contains "mood" = true ∧
      s.state.pending?.isSome = true ∧ s.state.phase = .awaitingInterceptor ∧
      (s.setGraph welcome).result.dropped = 1 ∧
      (s.setGraph welcome).session.state.pending? = none ∧
      (s.setGraph welcome).session.state.phase = .idle := by
  decide +kernel

end Session

end Dialogue
