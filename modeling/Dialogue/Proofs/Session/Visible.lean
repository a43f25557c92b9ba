import Dialogue.Proofs.Conversation.Resync
import Dialogue.Proofs.Session.Outlook
import Dialogue.Proofs.Session.Stride

/-! What is visible is what is in history. A run shows a turn component by component after it has
committed it, so at a pause some of history is still to be shown; an edit takes from sight what it
takes out of history, and shows what it adds, unless a run is at work. Then what it adds stays
hidden. -/

namespace Dialogue

namespace Entry

theorem mem_shown {es : List Entry} {id : ComponentId} :
    id ∈ shown es ↔ ∃ s, .step s ∈ es ∧ id ∈ s.components.map Component.id := by
  refine List.mem_flatMap.trans ⟨fun ⟨e, he, hid⟩ => ?_, fun ⟨s, hs, hid⟩ => ⟨.step s, hs, hid⟩⟩
  cases e with
  | step s => exact ⟨s, he, hid⟩
  | _ => cases hid

theorem shown_recut (cuts : List Cut) (es : List Entry) :
    shown (Conversation.recut cuts es) = shown es :=
  Conversation.flatMap_recut map_id_components_cut cuts es

end Entry

theorem Pause.toShow_behind (rest : List Component) :
    (Pause.behind rest).toShow = rest.map Component.id := by
  cases rest <;> rfl

namespace Conversation

theorem shown_patchedHistory (c : Conversation) (g : FlowGraph) :
    Entry.shown (c.patchedHistory g) = Entry.shown (c.history.filterMap (Entry.patch? g)) :=
  Entry.shown_recut c.cuts _

theorem mem_patchedVisible {c : Conversation} {g : FlowGraph} {id : ComponentId} :
    id ∈ c.patchedVisible g ↔
      (id ∈ c.visible ∧ id ∈ Entry.shown (c.patchedHistory g)) ∨
        (c.isActive = false ∧ id ∈ c.history.flatMap (Entry.gains g)) := by
  let present := (c.patchedHistory g).flatMap fun e => e.components.map Component.id
  have hkept : id ∈ c.visible.filter present.contains ↔
      id ∈ c.visible ∧ id ∈ Entry.shown (c.patchedHistory g) :=
    NameSet.mem_filter.trans (and_congr_right fun _ => List.contains_iff_mem)
  unfold patchedVisible
  cases hactive : c.isActive with
  | true => simp only [if_true, hkept, Bool.true_eq_false, false_and, or_false, present]
  | false =>
      simp only [Bool.false_eq_true, if_false, NameSet.mem_insertAll, true_and]
      exact or_comm.trans (or_congr_left hkept)

theorem mem_shown_patchedHistory {c : Conversation} {g : FlowGraph} {id : ComponentId}
    (h : id ∈ Entry.shown (c.patchedHistory g)) :
    id ∈ Entry.shown c.history ∨ id ∈ c.history.flatMap (Entry.gains g) := by
  rw [shown_patchedHistory, Entry.mem_shown] at h
  obtain ⟨fresh, hfresh, hid⟩ := h
  obtain ⟨e, he, hpatch⟩ := List.mem_filterMap.mp hfresh
  obtain ⟨old, rfl, hold, hfound⟩ := Entry.step?_of_patch? hpatch
  by_cases hbefore : id ∈ old.components.map Component.id
  · exact .inl (Entry.mem_shown.mpr ⟨old, he, hbefore⟩)
  · refine .inr (List.mem_flatMap.mpr ⟨.step old, he, ?_⟩)
    simp only [Entry.gains, hold, hfound, List.mem_filter]
    exact ⟨hid, by simpa using hbefore⟩

theorem mem_shown_of_mem_gains {c : Conversation} {g : FlowGraph} {id : ComponentId}
    (h : id ∈ c.history.flatMap (Entry.gains g)) : id ∈ Entry.shown (c.patchedHistory g) := by
  obtain ⟨e, he, hid⟩ := List.mem_flatMap.mp h
  rw [shown_patchedHistory, Entry.mem_shown]
  cases e with
  | step old =>
      simp only [Entry.gains] at hid
      split at hid
      · next fresh hfresh =>
        have hpatch := Entry.patch?_step_some hfresh
        exact ⟨fresh, List.mem_filterMap.mpr ⟨.step old, he, hpatch⟩, (List.mem_filter.mp hid).1⟩
      · cases hid
  | _ => cases hid

/-- Whether at a pause just those components of history are visible that are neither still to be
shown nor hidden. What is visible or to be shown without being in history is `astray`. -/
structure Shows (hidden astray : List ComponentId) (c : Conversation) (p : Option Pause) : Prop
    where
  visible : ∀ id ∈ c.visible, id ∈ Entry.shown c.history ∨ id ∈ astray
  history : ∀ id ∈ Entry.shown c.history,
    id ∈ c.visible ∨ id ∈ p.elim [] Pause.toShow ∨ id ∈ hidden
  toShow : ∀ id ∈ p.elim [] Pause.toShow, id ∈ Entry.shown c.history ∨ id ∈ astray

section

variable {hidden astray : List ComponentId} {c c' : Conversation}

theorem Shows.frame {p p' : Option Pause} (h : c.Shows hidden astray p)
    (history : Entry.shown c'.history = Entry.shown c.history) (visible : c'.visible = c.visible)
    (toShow : p'.elim [] Pause.toShow = p.elim [] Pause.toShow) : c'.Shows hidden astray p' := by
  refine ⟨?_, ?_, ?_⟩
  · rw [visible, history]
    exact h.visible
  · rw [visible, history, toShow]
    exact h.history
  · rw [toShow, history]
    exact h.toShow

theorem Shows.show {p p' : Option Pause} (h : c.Shows hidden astray p) (id : ComponentId)
    (htoShow : p.elim [] Pause.toShow = id :: p'.elim [] Pause.toShow)
    (hhistory : c'.history = c.history) (hvisible : c'.visible = c.visible.insert id) :
    c'.Shows hidden astray p' := by
  refine ⟨fun i hi => ?_, fun i hi => ?_, fun i hi => ?_⟩
  · rw [hhistory]
    rw [hvisible, NameSet.mem_insert] at hi
    rcases hi with rfl | hi
    · exact h.toShow i (htoShow ▸ List.mem_cons_self)
    · exact h.visible i hi
  · rw [hhistory] at hi
    rw [hvisible, NameSet.mem_insert]
    rcases h.history i hi with hv | hs | hh
    · exact .inl (.inr hv)
    · rw [htoShow] at hs
      rcases List.mem_cons.mp hs with rfl | hs
      · exact .inl (.inl rfl)
      · exact .inr (.inl hs)
    · exact .inr (.inr hh)
  · rw [hhistory]
    exact h.toShow i (htoShow ▸ List.mem_cons_of_mem _ hi)

/-- A run shows what it commits, component by component. -/
theorem Shows.stride {p : Pause} {p' : Option Pause} (h : c.Shows hidden astray (some p))
    (hs : Stride c p c' p') : c'.Shows hidden astray p' := by
  cases hs with
  | commit e rest hqueue hturn =>
      have hcomponents : e.components = [] := by
        cases e with
        | step s =>
            cases s with
            | turn id components => exact absurd rfl (hturn id components)
            | _ => rfl
        | _ => rfl
      exact h.frame (by simp [hcomponents]) rfl rfl
  | openTurn id components =>
      have hshown : Entry.shown (c.history ++ [.step (.turn id components)]) =
          Entry.shown c.history ++ components.map Component.id := by
        simp [Entry.components, Step.components]
      refine ⟨fun i hi => ?_, fun i hi => ?_, fun i hi => ?_⟩
      · rw [history_commit, hshown]
        exact (h.visible i hi).imp_left (List.mem_append_left _)
      · rw [history_commit, hshown] at hi
        rcases List.mem_append.mp hi with hi | hi
        · rcases h.history i hi with hv | hs | hh
          · exact .inl hv
          · cases hs
          · exact .inr (.inr hh)
        · rw [← Pause.toShow_behind components] at hi
          exact .inr (.inl hi)
      · rw [Option.elim, Pause.toShow_behind] at hi
        rw [history_commit, hshown]
        exact .inl (List.mem_append_right _ hi)
  | beginText d rest ch chars htext => exact h.show d.id rfl rfl rfl
  | reveal d rest =>
      refine h.show d.id ?_ rfl rfl
      rw [Option.elim, Option.elim, Pause.toShow_behind]
      rfl
  | finish d ch rest => exact h.frame rfl rfl (Pause.toShow_behind rest)
  | _ => exact h.frame rfl rfl rfl

theorem Shows.shift {P : Entry → Prop} {p p' : Option Pause} (h : c.Shows hidden astray p)
    (hs : Shift true P c p c' p') : c'.Shows hidden astray p' := by
  cases hs with
  | take id i c' htake =>
      rcases take?_eq_some htake with ⟨-, rfl⟩ | ⟨-, rfl⟩
      · exact h.frame (Entry.shown_eraseP_isInterceptor id c.history) rfl rfl
      · exact h.frame rfl rfl rfl
  | assign store cursor => exact h.frame rfl rfl rfl
  | commitShown e hentry hplace =>
      have hshown : Entry.shown (c.commitShown e).history =
          Entry.shown c.history ++ e.components.map Component.id := by
        simp
      have hvisible : ∀ i, i ∈ (c.commitShown e).visible ↔
          i ∈ e.components.map Component.id ∨ i ∈ c.visible := fun i => NameSet.mem_insertAll
      refine ⟨fun i hi => ?_, fun i hi => ?_, fun i hi => ?_⟩
      · rw [hshown]
        rcases (hvisible i).mp hi with hi | hi
        · exact .inl (List.mem_append_right _ hi)
        · exact (h.visible i hi).imp_left (List.mem_append_left _)
      · rw [hvisible]
        rw [hshown] at hi
        rcases List.mem_append.mp hi with hi | hi
        · exact (h.history i hi).imp_left .inr
        · exact .inl (.inl hi)
      · rw [hshown]
        exact (h.toShow i hi).imp_left (List.mem_append_left _)
  | enqueue batch hbatch =>
      refine h.frame rfl rfl ?_
      cases p <;> rfl

/-- A stop shows no more of history than was shown. -/
theorem Shows.halt {p : Option Pause} (h : c.Shows hidden astray p) (marker : Feedback) :
    (c.halt marker).Shows (Entry.shown c.history) astray none := by
  have hshown : Entry.shown (c.halt marker).history = Entry.shown c.history := by
    rw [history_halt, Entry.shown_append, Entry.shown_recut]
    exact List.append_nil _
  refine ⟨?_, ?_, nofun⟩
  · rw [hshown]
    exact h.visible
  · rw [hshown]
    exact fun _ hid => .inr (.inr hid)

def lostUnshown (c : Conversation) (g : FlowGraph) (p : Option Pause) : List ComponentId :=
  (p.elim [] Pause.toShow).filter fun id => !(Entry.shown (c.patchedHistory g)).contains id

/-- An edit hides what it adds in the midst of a delivery, and else nothing. What the run has still
to show goes astray where the edit takes it out of history. -/
theorem Shows.resync {p : Option Pause} (h : c.Shows hidden astray p) (g : FlowGraph) :
    (c.resync g).Shows (hidden ++ if c.isActive then c.history.flatMap (Entry.gains g) else [])
      (c.lostUnshown g p) p := by
  refine ⟨fun i hi => ?_, fun i hi => ?_, fun i hi => ?_⟩
  · rcases mem_patchedVisible.mp hi with ⟨-, hi⟩ | ⟨-, hi⟩
    · exact .inl hi
    · exact .inl (mem_shown_of_mem_gains hi)
  · have hvisible : i ∈ (c.resync g).visible ↔ _ := mem_patchedVisible
    rw [hvisible, List.mem_append]
    -- a component that an entry gains is shown at once, or else hidden
    rcases mem_shown_patchedHistory hi with hold | hgained
    · rcases h.history i hold with hv | hs | hh
      · exact .inl (.inl ⟨hv, hi⟩)
      · exact .inr (.inl hs)
      · exact .inr (.inr (.inl hh))
    · cases hactive : c.isActive with
      | true => exact .inr (.inr (.inr hgained))
      | false => exact .inl (.inr ⟨rfl, hgained⟩)
  · by_cases hkept : i ∈ Entry.shown (c.patchedHistory g)
    · exact .inl hkept
    · exact .inr (List.mem_filter.mpr ⟨hi, by simpa using hkept⟩)

end

end Conversation

namespace Session

end Session

namespace Session

end Session

end Dialogue
