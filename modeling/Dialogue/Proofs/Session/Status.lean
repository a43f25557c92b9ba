import Dialogue.Proofs.Session.Stride

/-! What a session shows of a delivery. Each pause of a run has its phase, which the run goes into
before it waits there, and acts that come in turn leave it alone. A batch that is committed at once
in the midst of a turn does not, if it asks a question. -/

namespace Dialogue

namespace Pause

/-- The phase in which a run waits. Before it has begun, the conversation is still at rest. -/
def phase? : Pause → Option Phase
  | unstarted => none
  | beforeTurn .. => some .thinking
  | beforeComponent .. => some .pausedBetween
  | beforeReveal .. => some .instantReveal
  | beforeCharacter .. => some .streaming

def admits (p : Pause) (phase : Phase) : Bool := p.phase?.elim phase.isRest fun own => phase = own

end Pause

namespace Conversation

/-- Whether the phase is that of the pause at which the latest run waits, or one of rest. -/
def InPhase (c : Conversation) (p : Option Pause) : Prop :=
  (p.getD .unstarted).admits c.phase = true

theorem InPhase.phase_eq {c : Conversation} {p : Pause} {phase : Phase} (h : c.InPhase (some p))
    (hp : p.phase? = some phase) : c.phase = phase := by
  have hadmits : p.admits c.phase = true := h
  rw [Pause.admits, hp] at hadmits
  exact of_decide_eq_true hadmits

theorem InPhase.frame {c c' : Conversation} {p : Option Pause} (h : c.InPhase p)
    (phase : c'.phase = c.phase ∨ c'.phase = c.phaseWithout) : c'.InPhase p := by
  unfold InPhase at h ⊢
  rcases phase with hphase | hphase
  · rw [hphase]
    exact h
  · rw [hphase, phaseWithout]
    split
    · next hw =>
      rw [hw] at h
      generalize p.getD .unstarted = q at h ⊢
      cases q with
      | unstarted => rfl
      | _ => cases h
    · exact h

/-! ### Runs go into the phases of their pauses -/

section Segment

variable (run : Run)

theorem inPhase_drain (c : Conversation) (queue : List Entry) :
    (drain run c queue).state.InPhase (drain run c queue).pause := by
  fun_induction drain run c queue with
  | case1 c =>
      simp only [settle, InPhase]
      split <;> rfl
  | case2 c id components rest c' events h =>
      simp only [enter, Prod.mk.injEq] at h
      obtain ⟨rfl, -⟩ := h
      rfl
  | case3 c e rest he ih => exact ih

theorem inPhase_begin (c : Conversation) (d : Component) (rest : List Component) :
    (begin run c d rest).state.InPhase (begin run c d rest).pause := by
  unfold begin
  split <;> rfl

theorem inPhase_proceed (c : Conversation) (previous : Component) (rest : List Component) :
    (proceed run c previous rest).state.InPhase (proceed run c previous rest).pause := by
  cases rest with
  | nil => exact inPhase_drain run c c.queue
  | cons d rest =>
      rw [proceed]
      split
      · exact inPhase_begin run c d rest
      · rfl

/-- Before a run waits it goes into the phase of its pause. -/
theorem inPhase_resumeFrom {c : Conversation} {p : Pause} (h : c.InPhase (some p)) :
    (resumeFrom run c p).state.InPhase (resumeFrom run c p).pause := by
  cases p with
  | unstarted => exact inPhase_drain run c c.queue
  | beforeTurn id components =>
      cases components with
      | nil => exact inPhase_drain run _ _
      | cons d rest => exact inPhase_begin run _ d rest
  | beforeComponent d rest => exact inPhase_begin run c d rest
  | beforeReveal d rest => exact inPhase_proceed run (c.reveal d.id) d rest
  | beforeCharacter d ch chars rest =>
      cases chars with
      | nil => exact inPhase_proceed run (c.push ch).finishStream d rest
      | cons ch' chars =>
          -- in the midst of a text the phase is left as it was
          exact h

end Segment

/-- What the user does in turn leaves the phase to the run. -/
theorem InPhase.shift {P : Entry → Prop} {c c' : Conversation} {p p' : Option Pause}
    (h : c.InPhase p) (hs : Shift false P c p c' p') : c'.InPhase p' := by
  cases hs with
  | take id i c' htake => exact h.frame (.inr (by rw [take?_frame htake]))
  | assign store cursor => exact h
  | commitShown e hentry hplace =>
      rw [hplace.resolve_left nofun] at h ⊢
      cases e with
      | interceptor i => rfl
      | _ => exact h
  | enqueue batch hbatch => exact h

section

variable {c : Conversation} {p : Option Pause} (h : c.AtPause p) (hphase : c.InPhase p)

include h hphase

theorem InPhase.of_streaming (hs : c.streaming.isSome = true) :
    c.phase = .streaming ∧ c.isThinking = false := by
  rw [h.streaming] at hs
  cases p with
  | none => cases hs
  | some p =>
      cases p with
      | beforeCharacter => exact ⟨hphase.phase_eq rfl, h.thinking⟩
      | _ => cases hs

theorem InPhase.of_isThinking (ht : c.isThinking = true) :
    (c.phase = .thinking ∨ c.phase = .pausedBetween) ∧ c.streaming = none := by
  rw [h.thinking] at ht
  cases p with
  | none => cases ht
  | some p =>
      cases p with
      | beforeTurn => exact ⟨.inl (hphase.phase_eq rfl), h.streaming_eq_none rfl⟩
      | beforeComponent => exact ⟨.inr (hphase.phase_eq rfl), h.streaming_eq_none rfl⟩
      | _ => cases ht

/-- In a phase of rest a run may be there, but has not begun. -/
theorem InPhase.of_isRest (hrest : c.phase.isRest = true) :
    c.isThinking = false ∧ c.streaming = none := by
  have hnotBegun : p.getD .unstarted = .unstarted := by
    unfold InPhase at hphase
    generalize p.getD .unstarted = q at hphase
    cases q with
    | unstarted => rfl
    | _ =>
        rw [of_decide_eq_true hphase] at hrest
        cases hrest
  cases p with
  | none => exact ⟨h.thinking, h.streaming_eq_none rfl⟩
  | some p =>
      obtain rfl : p = .unstarted := hnotBegun
      exact ⟨h.thinking, h.streaming_eq_none rfl⟩

end

end Conversation

namespace Session

theorem Sound.inPhase_perform {s : Session} (hs : s.Sound) {m : Move} (hturn : s.ComesInTurn m)
    (h : s.state.InPhase s.pause?) :
    (s.perform m).session.state.InPhase (s.perform m).session.pause? := by
  have honward : m.isOnward = true →
      (s.perform m).session.state.InPhase (s.perform m).session.pause? := fun hm =>
    hs.onward_induction (P := fun _ => True) (fun hc hshift => hc.shift hshift) hm (.inr hturn)
      (fun _ _ _ _ _ => trivial) (fun _ hc => Conversation.inPhase_resumeFrom s.live hc) h
  cases m with
  | stop now =>
      simp only [perform, Response.session_map, hs.pause?_stop]
      rcases hs.state_stop_cases now with ⟨ha, -, he⟩ | ⟨-, -, he⟩
      · rw [hs.pause?_of_not_active ha] at h
        rw [he]
        exact h
      · rw [he]
        rfl
  | reset =>
      simp only [perform, Response.session_map, hs.pause?_reset]
      rfl
  | setGraph graph =>
      refine Conversation.InPhase.frame (c := s.state) h ?_
      simp only [perform, setGraph, Response.session_map, Conversation.resync]
      split
      · exact .inl rfl
      · exact .inr rfl
  | act a clock => exact honward rfl
  | setVariable name value => exact honward rfl
  | proceed run => exact honward rfl

/-- While acts come in turn, the phase is at each moment that of the pause of the latest run. -/
theorem Sound.inPhase_after {s : Session} (hs : s.Sound) {moves : List Move}
    (hturn : s.Throughout ComesInTurn moves) (h : s.state.InPhase s.pause?) :
    (s.after moves).state.InPhase (s.after moves).pause? := by
  induction moves generalizing s with
  | nil => exact h
  | cons m rest ih => exact ih (sound_perform m hs) hturn.2 (hs.inPhase_perform hturn.1 h)

/-- If acts come in turn, what a session shows of a delivery agrees. A text is on its way in the
phase of streaming alone, and then nothing seems to be typed; something seems to be typed in the
phases of thinking and of the pause between two components alone, and then no text is on its way;
the phases in which something moves are those of a delivery at work, and in the others nothing is on
its way. -/
theorem status_agrees (graph : FlowGraph) (config : Config) (mint : Mint) (moves : List Move)
    (hturn : (ofGraph graph config mint).Throughout ComesInTurn moves) :
    let c := ((ofGraph graph config mint).after moves).state
    (c.streaming.isSome = true → c.phase = .streaming ∧ c.isThinking = false) ∧
      (c.isThinking = true →
        (c.phase = .thinking ∨ c.phase = .pausedBetween) ∧ c.streaming = none) ∧
      (c.phase = .thinking ∨ c.phase = .streaming ∨ c.phase = .instantReveal ∨
        c.phase = .pausedBetween → c.isActive = true) ∧
      (c.phase = .idle ∨ c.phase = .awaitingInterceptor ∨ c.phase = .stopped →
        c.isThinking = false ∧ c.streaming = none) := by
  intro c
  have hfresh : (ofGraph graph config mint).Sound := sound_ofGraph graph config mint
  have hpause : c.AtPause _ := (hfresh.after moves).atPause
  have hphase : c.InPhase _ := hfresh.inPhase_after hturn rfl
  refine ⟨hphase.of_streaming hpause, hphase.of_isThinking hpause,
    fun hp => hpause.isActive_of_isRest ?_, fun hp => hphase.of_isRest hpause ?_⟩
  · rcases hp with hp | hp | hp | hp <;> rw [hp] <;> rfl
  · rcases hp with hp | hp | hp <;> rw [hp] <;> rfl

/-- While the greeting is awaited something seems to be typed, in the phase of thinking. -/
theorem status_agrees_welcome :
    let c := ((ofGraph welcome (.standard "s") (.ofNonce "n")).after
      [.act .start true, .proceed ⟨1⟩]).state
    c.isThinking = true ∧ (c.phase = .thinking ∨ c.phase = .pausedBetween) ∧
      c.streaming = none := by
  intro c
  have hthinking : c.isThinking = true := by decide +kernel
  have h := status_agrees welcome (.standard "s") (.ofNonce "n") [.act .start true, .proceed ⟨1⟩]
    (throughout_comesInTurn_of_clock _ (by simp))
  exact ⟨hthinking, h.2.1 hthinking⟩

/-- A click without a clock at hand, while the greeting is awaited, asks a question at once, and the
conversation waits for an answer and seems to type. -/
theorem waiting_while_typing :
    let c := ((ofGraph welcome (.standard "s") (.ofNonce "n")).after
      [.act .start true, .proceed ⟨1⟩, .act (.click "hello" none "Hi") false]).state
    c.phase = .awaitingInterceptor ∧ c.isThinking = true := by
  decide +kernel

end Session

end Dialogue
