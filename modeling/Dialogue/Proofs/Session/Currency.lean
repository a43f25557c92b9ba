import Dialogue.Proofs.Conversation.Resync
import Dialogue.Proofs.Session.Stride

/-! History follows the flow. An edit brings history and queue up to date, but not the turn that a
run has taken out of the queue and not committed yet; so a step entry is what the flow now has of
its step, or a turn that was in the hands of the run at the latest edit. What stops have cut is left
aside. -/

namespace Dialogue

namespace Conversation

/-- Whether all steps are known that are on their way, and all in history but for what was cut. -/
structure Follows (known : Step → Prop) (c : Conversation) (p : Option Pause) : Prop where
  history : Entry.AreCutBy known c.cuts c.history
  coming : ∀ s, .step s ∈ c.coming p → known s

section

variable {known : Step → Prop} {c c' : Conversation}

theorem Follows.stride {p : Pause} {p' : Option Pause} (h : c.Follows known (some p))
    (hs : Stride c p c' p') : c'.Follows known p' := by
  refine ⟨?_, fun s hmem => h.coming s (hs.coming_subset hmem)⟩
  cases hs with
  | commit e rest hqueue hturn =>
      refine h.history.concat fun s he => h.coming s (List.mem_append_right _ ?_)
      rw [hqueue, he]
      exact List.mem_cons_self
  | openTurn id components =>
      refine h.history.concat fun s he => h.coming s (List.mem_append_left _ ?_)
      rw [← he]
      exact List.mem_cons_self
  | _ => exact h.history

theorem Follows.shift {g : FlowGraph} (hknown : ∀ s, g.step? s.id = some s → known s)
    {p p' : Option Pause} (h : c.Follows known p) (hs : Shift true (Entry.ComesFrom g) c p c' p') :
    c'.Follows known p' := by
  refine ⟨?_, fun s hmem => ?_⟩
  · cases hs with
    | take id i c' htake =>
        rcases take?_eq_some htake with ⟨-, rfl⟩ | ⟨-, rfl⟩
        · exact fun s hs => h.history s (List.mem_of_mem_eraseP hs)
        · exact h.history
    | commitShown e hentry hplace =>
        refine h.history.concat fun s he => hknown s ?_
        rw [he] at hentry
        exact hentry.step?_eq_some
    | _ => exact h.history
  · rcases hs.step_mem_coming hmem with hmem | hfound
    · exact h.coming s hmem
    · exact hknown s hfound

/-- A stop cuts one text at most, which its cut accounts for. -/
theorem Follows.halt {p : Option Pause} (h : c.Follows known p) (marker : Feedback) :
    (c.halt marker).Follows known none := by
  refine ⟨?_, fun s hmem => absurd hmem List.not_mem_nil⟩
  have hcut : Entry.AreCutBy known (c.cuts ++ c.cut?.toList)
      (c.cut?.elim c.history fun cut => cut.apply c.history) := by
    have hmore := h.history.mono (List.subset_append_left c.cuts c.cut?.toList)
    cases hnew : c.cut? with
    | none =>
        rw [hnew] at hmore
        exact hmore
    | some cut =>
        rw [hnew] at hmore
        exact Cut.areCutBy_apply (List.mem_append_right _ (List.mem_singleton_self cut)) hmore
  exact hcut.concat nofun

/-- An edit makes history and queue follow the new flow, whatever they were. -/
theorem follows_resync (c : Conversation) (g : FlowGraph) (p : Option Pause) :
    (c.resync g).Follows
      (fun s => g.step? s.id = some s ∨ .step s ∈ p.elim [] Pause.held) p := by
  have hpatched : ∀ (es : List Entry) s, .step s ∈ es.filterMap (Entry.patch? g) →
      g.step? s.id = some s := by
    intro es s hs
    obtain ⟨e, -, he⟩ := List.mem_filterMap.mp hs
    obtain ⟨-, -, -, hfound⟩ := Entry.step?_of_patch? he
    exact hfound
  refine ⟨areCutBy_recut fun s hs => ?_, fun s hmem => ?_⟩
  · exact ⟨s, .inl (hpatched c.history s hs), Step.CutBy.refl c.cuts s⟩
  · rcases List.mem_append.mp hmem with hmem | hmem
    · exact .inr hmem
    · exact .inl (hpatched c.queue s hmem)

end

end Conversation

namespace Session

/-- Notes which turn was in the hands of the run at the latest edit. -/
def heldAtEdit (s : Session) (held : List Entry) : Move → List Entry
  | .setGraph _ => s.held
  | _ => held

def Knows (s : Session) (held : List Entry) (st : Step) : Prop :=
  s.graph.step? st.id = some st ∨ .step st ∈ held

theorem Sound.follows_perform {s : Session} (hs : s.Sound) {held : List Entry} (m : Move)
    (h : s.state.Follows (s.Knows held) s.pause?) :
    (s.perform m).session.state.Follows ((s.perform m).session.Knows (s.heldAtEdit held m))
      (s.perform m).session.pause? := by
  by_cases hedit : ∃ graph, m = .setGraph graph
  · obtain ⟨graph, rfl⟩ := hedit
    exact s.state.follows_resync graph s.pause?
  · have hedit := not_exists.mp hedit
    have hknows : (s.perform m).session.Knows (s.heldAtEdit held m) = s.Knows held := by
      have hheld : s.heldAtEdit held m = held := by
        cases m with
        | setGraph graph => exact absurd rfl (hedit graph)
        | _ => rfl
      unfold Knows
      rw [hheld, s.graph_perform hedit]
    rw [hknows]
    exact hs.move_induction (I := Conversation.Follows (s.Knows held))
      (fun hc => hc.shift fun _ => .inl) hedit (.inl rfl) (fun a _ _ => s.comesFrom_of_mem_plan a)
      (fun hc => hc.stride) (fun _ _ => h.halt) (fun _ => ⟨nofun, nofun⟩) h

/-- A step entry of history is what the flow now has of its step, or a turn that the run held at the
latest edit, but for texts that were cut. -/
theorem history_follows_flow (graph : FlowGraph) (config : Config) (mint : Mint)
    (moves : List Move) :
    let fresh := ofGraph graph config mint
    let s := fresh.after moves
    ∀ shown, .step shown ∈ s.state.history → ∃ st, st.CutBy s.state.cuts shown ∧
      (s.graph.step? shown.id = some st ∨ .step st ∈ fresh.tracked heldAtEdit [] moves) := by
  intro fresh s shown hshown
  have hfresh : fresh.Sound := sound_ofGraph graph config mint
  have hfollows : s.state.Follows (s.Knows (fresh.tracked heldAtEdit [] moves)) s.pause? :=
    tracked_induction (P := fun t held => t.state.Follows (t.Knows held) t.pause?) moves
      ⟨nofun, nofun⟩ fun earlier m _ _ => (hfresh.after earlier).follows_perform m
  obtain ⟨st, hst, hcut⟩ := hfollows.history shown hshown
  refine ⟨st, hcut, ?_⟩
  rw [hcut.id_eq]
  exact hst

/-- An edit that comes while the run holds the greeting misses it, and nothing makes up for it. -/
theorem held_greeting_misses_edit :
    let s := (ofGraph welcome (.standard "s") (.ofNonce "n")).after
      [.act .start true, .proceed ⟨1⟩, .setGraph warmWelcome, .proceed ⟨1⟩, .proceed ⟨1⟩,
        .proceed ⟨1⟩]
    s.state.isActive = false ∧ s.state.cuts = [] ∧
      .step (.turn "hello" [.message "h" "Hi"]) ∈ s.state.history ∧
      s.graph.step? "hello" = some (.turn "hello" [.message "h" "Hey"]) := by
  decide +kernel

end Session

end Dialogue
