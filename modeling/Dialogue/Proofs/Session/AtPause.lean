import Dialogue.Proofs.Session.Course

/-! Where a run waits tells what its conversation is doing: whether it types, and whether a text is
on its way. From one pause to the next a run keeps to this. -/

namespace Dialogue

def Phase.isRest : Phase → Bool
  | .idle | .awaitingInterceptor | .stopped => true
  | _ => false

namespace Pause

def isWriting : Pause → Bool
  | beforeCharacter .. => true
  | _ => false

def isTyping : Pause → Bool
  | beforeTurn .. | beforeComponent .. => true
  | _ => false

end Pause

namespace Conversation

/-- What a conversation is like while its latest run waits at `p`, or while there is none. -/
structure AtPause (c : Conversation) (p : Option Pause) : Prop where
  active : c.isActive = p.isSome
  queue : p = none → c.queue = []
  thinking : c.isThinking = p.any Pause.isTyping
  streaming : c.streaming.isSome = p.any Pause.isWriting
  rest : p = none → c.phase.isRest = true

theorem AtPause.streaming_eq_none {c : Conversation} {p : Option Pause} (h : c.AtPause p)
    (hp : p.any Pause.isWriting = false) : c.streaming = none := by
  have hs := h.streaming
  rw [hp] at hs
  simpa using hs

theorem AtPause.isDelivering_eq {c : Conversation} {p : Option Pause} (h : c.AtPause p) :
    c.isDelivering = c.isActive := by
  cases p with
  | none =>
      have hq := h.queue rfl
      have ht := h.thinking
      have hs := h.streaming
      simp_all [isDelivering]
  | some p => simp [isDelivering, h.active]

/-- Where something moves, a run is at work. -/
theorem AtPause.isActive_of_isRest {c : Conversation} {p : Option Pause} (h : c.AtPause p)
    (hrest : c.phase.isRest = false) : c.isActive = true := by
  cases p with
  | none => exact absurd (h.rest rfl) (by simp [hrest])
  | some p => exact h.active

/-- A change that touches none of what a pause tells of. A question taken away may end the phase
in which it was waited for. -/
theorem AtPause.frame {c c' : Conversation} {p : Option Pause} (h : c.AtPause p)
    (active : c'.isActive = c.isActive) (queue : p = none → c.queue = [] → c'.queue = [])
    (thinking : c'.isThinking = c.isThinking) (streaming : c'.streaming = c.streaming)
    (phase : c'.phase = c.phase ∨ c'.phase = c.phaseWithout) : c'.AtPause p := by
  refine ⟨active.trans h.active, fun hp => queue hp (h.queue hp), thinking.trans h.thinking,
    by rw [streaming, h.streaming], fun hp => ?_⟩
  rcases phase with hphase | hphase
  · rw [hphase]
    exact h.rest hp
  · rw [hphase, phaseWithout]
    split
    · rfl
    · exact h.rest hp

theorem find?_isInterceptor (es : List Entry) (id : String) :
    ((es.find? (Entry.isInterceptor id)).bind Entry.interceptor?).isSome =
      es.any (Entry.isInterceptor id) := by
  induction es with
  | nil => rfl
  | cons e rest ih =>
      cases hi : e.interceptor? with
      | none => simpa [Entry.isInterceptor, hi] using ih
      | some i =>
          cases hid : i.id == id with
          | true => simp [Entry.isInterceptor, hi, hid]
          | false => simpa [Entry.isInterceptor, hi, hid] using ih

theorem take?_eq_some {c c' : Conversation} {id : String} {i : Interceptor}
    (h : c.take? id = some (i, c')) :
    ((∃ e ∈ c.history, e.isInterceptor id = true) ∧ c' = { c with
        history := c.history.eraseP (Entry.isInterceptor id)
        phase := c.phaseWithout }) ∨
      ((∀ e ∈ c.history, ¬ e.isInterceptor id = true) ∧ c' = { c with
        queue := c.queue.eraseP (Entry.isInterceptor id)
        phase := c.phaseWithout }) := by
  have hfind := find?_isInterceptor c.history id
  unfold take? at h
  split at h
  · next hj =>
    cases h
    rw [hj] at hfind
    exact .inl ⟨List.any_eq_true.mp hfind.symm, rfl⟩
  · next hj =>
    rw [hj] at hfind
    have hnone := List.any_eq_false.mp hfind.symm
    split at h
    · cases h
      exact .inr ⟨hnone, rfl⟩
    · cases h

/-- All but the place of the question and the phase stays. -/
theorem take?_frame {c c' : Conversation} {id : String} {i : Interceptor}
    (h : c.take? id = some (i, c')) :
    c' = { c with history := c'.history, queue := c'.queue, phase := c.phaseWithout } := by
  rcases take?_eq_some h with ⟨-, rfl⟩ | ⟨-, rfl⟩
  · rfl
  · rfl

theorem take?_eq_none {c : Conversation} {id : String} (h : c.take? id = none) :
    ∀ e ∈ c.history ++ c.queue, ¬ e.isInterceptor id = true := by
  have hhistory := find?_isInterceptor c.history id
  have hqueue := find?_isInterceptor c.queue id
  unfold take? at h
  split at h
  · cases h
  · next hj =>
    split at h
    · cases h
    · next hk =>
      rw [hj] at hhistory
      rw [hk] at hqueue
      intro e he
      rcases List.mem_append.mp he with he | he
      · exact List.any_eq_false.mp hhistory.symm e he
      · exact List.any_eq_false.mp hqueue.symm e he

theorem AtPause.take? {c c' : Conversation} {id : String} {i : Interceptor} {p : Option Pause}
    (h : c.AtPause p) (ht : c.take? id = some (i, c')) : c'.AtPause p := by
  rcases take?_eq_some ht with ⟨-, rfl⟩ | ⟨-, rfl⟩
  · exact h.frame rfl (fun _ hq => hq) rfl rfl (.inr rfl)
  · exact h.frame rfl (fun _ hq => by simp [hq]) rfl rfl (.inr rfl)

theorem AtPause.resolve {c : Conversation} {p : Option Pause} (ch : Choice) (freshId : String)
    (h : c.AtPause p) : (c.resolve ch freshId).2.AtPause p := by
  unfold Conversation.resolve
  split
  · exact h
  · next i c' ht =>
    have hc := h.take? ht
    split
    · exact hc
    · exact hc.frame rfl (fun _ hq => hq) rfl rfl (.inl rfl)

section Segment

variable (run : Run)

theorem atPause_drain {c : Conversation} (queue : List Entry) (ha : c.isActive = true)
    (hs : c.streaming = none) :
    (drain run c queue).state.AtPause (drain run c queue).pause := by
  fun_induction drain run c queue with
  | case1 c =>
      refine ⟨rfl, fun _ => rfl, rfl, by simp [settle, hs], fun _ => ?_⟩
      simp only [settle]
      split <;> rfl
  | case2 c id components rest c' events h =>
      simp only [enter, Prod.mk.injEq] at h
      obtain ⟨rfl, -⟩ := h
      constructor <;> simp [ha, hs, Pause.isTyping, Pause.isWriting, Phase.isPause]
  | case3 c e rest he ih => exact ih ha hs

theorem atPause_begin {c : Conversation} (d : Component) (rest : List Component)
    (ha : c.isActive = true) (hs : c.streaming = none) :
    (begin run c d rest).state.AtPause (begin run c d rest).pause := by
  unfold begin
  split <;> constructor <;>
    simp [enter, beginStream, ha, hs, Pause.isTyping, Pause.isWriting, Phase.isPause]

theorem atPause_proceed {c : Conversation} (d : Component) (rest : List Component)
    (ha : c.isActive = true) (hs : c.streaming = none) :
    (proceed run c d rest).state.AtPause (proceed run c d rest).pause := by
  cases rest with
  | nil => exact atPause_drain run c.queue ha hs
  | cons d' rest =>
      simp only [proceed]
      split
      · exact atPause_begin run d' rest ha hs
      · constructor <;>
          simp [enter, ha, hs, Pause.isTyping, Pause.isWriting, Phase.isPause]

theorem atPause_openTurn {c : Conversation} (id : StepId) (components : List Component)
    (ha : c.isActive = true) (hs : c.streaming = none) :
    (openTurn run c id components).state.AtPause (openTurn run c id components).pause := by
  cases components with
  | nil => exact atPause_drain run c.queue ha hs
  | cons d rest => exact atPause_begin run d rest ha hs

/-- From one pause to the next a run keeps the conversation at its pause. -/
theorem atPause_resumeFrom {c : Conversation} {p : Pause} (h : c.AtPause (some p)) :
    (resumeFrom run c p).state.AtPause (resumeFrom run c p).pause := by
  have ha : c.isActive = true := h.active
  cases p with
  | unstarted => exact atPause_drain run c.queue ha (h.streaming_eq_none rfl)
  | beforeTurn id components =>
      exact atPause_openTurn run id components ha (h.streaming_eq_none rfl)
  | beforeComponent d rest => exact atPause_begin run d rest ha (h.streaming_eq_none rfl)
  | beforeReveal d rest =>
      have hs : (c.reveal d.id).streaming = none := h.streaming_eq_none rfl
      exact atPause_proceed run d rest (c := c.reveal d.id) ha hs
  | beforeCharacter d ch chars rest =>
      cases chars with
      | nil => exact atPause_proceed run d rest (c := (c.push ch).finishStream) ha rfl
      | cons ch' chars =>
          have hs := h.streaming
          refine ⟨ha, nofun, h.thinking, ?_, nofun⟩
          simpa [resumeFrom, write, push, Pause.isWriting] using hs

end Segment

theorem atPause_apply {c : Conversation} {p : Option Pause} (batch : List Entry)
    (h : c.AtPause p) : (c.apply batch).AtPause p := by
  induction batch generalizing c with
  | nil => exact h
  | cons e rest ih =>
      rw [apply_cons]
      apply ih
      refine ⟨h.active, h.queue, h.thinking, h.streaming, fun hp => ?_⟩
      simp only [commitShown, commit]
      split
      · rfl
      · exact h.rest hp

end Conversation

end Dialogue
