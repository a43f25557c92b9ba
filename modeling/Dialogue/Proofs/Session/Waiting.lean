import Mathlib.Data.List.Induction
import Dialogue.Proofs.Session.Heard

/-! How long a question is waited for. While nothing is delivered, a conversation with a pending
question waits for its answer, unless a turn was on its way or a delivery stopped since the question
was asked. Where nothing is delivered with pauses, this never happens. -/

namespace Dialogue

namespace Event

theorem distracted_eq_false {events : List Event} (h : ∀ event ∈ events, event.distracts = false) :
    distracted events = false := by
  induction events using List.reverseRecOn with
  | nil => rfl
  | append_singleton events event ih =>
      obtain ⟨hevents, hevent⟩ := List.forall_mem_append.mp h
      rw [distracted_concat, ih hevents, hevent event List.mem_cons_self]
      simp

end Event

namespace Session

variable {s : Session}

theorem distracts_of_mem_announcedShown (run : Run) (batch : List Entry) :
    ∀ event ∈ batch.flatMap (Entry.announcedShown run), event.distracts = false := by
  intro event hevent
  obtain ⟨e, -, hevent⟩ := List.mem_flatMap.mp hevent
  rcases List.mem_append.mp hevent with hevent | hevent
  · rcases List.mem_cons.mp hevent with rfl | hevent
    · rfl
    · obtain ⟨d, -, rfl⟩ := List.mem_map.mp hevent
      rfl
  · cases e with
    | interceptor i =>
        rcases List.mem_pair.mp hevent with rfl | rfl <;> rfl
    | _ => cases hevent

theorem distracts_of_mem_hand (s : Session) (batch : List Entry) (clock : Bool) :
    ∀ event ∈ (s.hand batch clock).2, event.distracts = false := by
  have hshown := distracts_of_mem_announcedShown s.live batch
  unfold hand
  cases s.config.simulates with
  | false => exact hshown
  | true =>
      cases clock with
      | false => exact List.forall_mem_cons.mpr ⟨rfl, hshown⟩
      | true => nofun

/-- An act draws the conversation off no question, though a delivery that it starts may. -/
theorem distracts_of_mem_act (s : Session) (a : Act) (clock : Bool) :
    ∀ event ∈ (s.act clock a).events, event.distracts = false := by
  have hdispatch : ∀ event ∈ ((s.plan a).session.dispatch (s.plan a).batch clock).2,
      event.distracts = false := by
    unfold dispatch
    split
    · nofun
    · split
      · refine List.forall_mem_append.mpr ⟨?_, distracts_of_mem_hand _ _ clock⟩
        unfold supersede
        split
        · simp [inDelivery, Event.distracts]
        · nofun
      · exact distracts_of_mem_hand _ _ clock
  rw [act_eq_carryOut]
  refine List.forall_mem_append.mpr ⟨fun event hevent => ?_, hdispatch⟩
  · have hrun := s.run?_of_mem_notice a event hevent
    cases event with
    | phaseChanged | stopped => cases hrun
    | _ => rfl

theorem pause?_dispatch_of_untimed {batch : List Entry} {clock : Bool}
    (ht : s.isTimed clock = false) : (s.dispatch batch clock).1.pause? = s.pause? := by
  have hhand : ∀ s : Session, s.isTimed clock = false →
      (s.hand batch clock).1.pause? = s.pause? := by
    intro s ht
    rcases s.hand_cases batch clock with ⟨-, he⟩ | ⟨htimed, -⟩
    · rw [he]
      rfl
    · simp [isTimed, htimed] at ht
  unfold dispatch
  split
  · rfl
  · split
    · exact (hhand _ (s.isTimed_supersede clock ▸ ht)).trans s.pause?_supersede
    · exact hhand s ht

theorem Sound.pause?_perform_of_untimed (hs : s.Sound) (hnone : s.pause? = none) {m : Move}
    (hm : ∀ a clock, m = .act a clock → s.isTimed clock = false) :
    (s.perform m).session.pause? = none := by
  cases m with
  | act a clock =>
      have htimed := hm a clock rfl
      rw [← isTimed_plan s a] at htimed
      rw [← s.pause?_plan a] at hnone
      simp only [perform, Response.session_map, act_eq_carryOut, Plan.carryOut]
      rw [pause?_dispatch_of_untimed htimed]
      exact hnone
  | stop now => exact hs.pause?_stop now
  | reset => exact hs.pause?_reset
  | setGraph graph => exact hnone
  | setVariable name value => exact hnone
  | proceed run =>
      simp only [perform]
      rcases s.proceed_cases run with he | ⟨p, -, hp, -⟩ | ⟨hr, he⟩
      · rw [he]
        exact hnone
      · rw [hnone] at hp
        cases hp
      · rw [he, pause?_moveRun_of_ne hr]
        exact hnone

/-- While no run waits, nothing draws the conversation off a question. -/
theorem Sound.distracts_of_mem_perform (hs : s.Sound) (hnone : s.pause? = none) (m : Move) :
    ∀ event ∈ (s.perform m).events, event.distracts = false := by
  cases m with
  | act a clock => exact s.distracts_of_mem_act a clock
  | stop now =>
      have hactive := hs.atPause.active
      rw [hnone] at hactive
      have hd : s.state.isDelivering = false := hs.atPause.isDelivering_eq.trans hactive
      simp only [perform, stop, Conversation.stop?, hd]
      exact List.forall_mem_nil _
  | reset => simp [perform, reset, Response.map, Event.distracts, Phase.isRest]
  | setGraph graph => exact List.forall_mem_nil _
  | setVariable name value => simp [perform, setVariable, Response.map, Event.distracts]
  | proceed run =>
      simp only [perform]
      rcases s.proceed_cases run with he | ⟨p, -, hp, -⟩ | ⟨-, he⟩
      · rw [he]
        exact List.forall_mem_nil _
      · rw [hnone] at hp
        cases hp
      · rw [he]
        exact List.forall_mem_nil _

theorem Sound.distracts_of_mem_published (hs : s.Sound) (hnone : s.pause? = none)
    {moves : List Move} (hmoves : ∀ a clock, .act a clock ∈ moves → s.isTimed clock = false) :
    ∀ event ∈ s.published moves, event.distracts = false := by
  induction moves generalizing s with
  | nil => nofun
  | cons m rest ih =>
      have hpause := hs.pause?_perform_of_untimed hnone fun a clock he =>
        hmoves a clock (he ▸ List.mem_cons_self)
      refine List.forall_mem_append.mpr
        ⟨hs.distracts_of_mem_perform hnone m, ih (sound_perform m hs) hpause ?_⟩
      intro a clock hmem
      rw [isTimed_perform]
      exact hmoves a clock (List.mem_cons_of_mem _ hmem)

/-- While nothing is delivered and no stop came last, the conversation waits for an answer just if
a question is pending and nothing has drawn it off the question since this was asked, and is idle
otherwise. Nothing ever does where nothing is delivered with pauses. -/
theorem waiting_iff_not_distracted (graph : FlowGraph) (config : Config) (mint : Mint)
    (moves : List Move) :
    let fresh := ofGraph graph config mint
    let s := fresh.after moves
    s.state.isActive = false → s.state.phase ≠ .stopped →
      (s.state.phase = .awaitingInterceptor ↔
        s.state.pending?.isSome = true ∧ Event.distracted (fresh.published moves) = false) ∧
      (s.state.phase ≠ .awaitingInterceptor → s.state.phase = .idle) ∧
      ((∀ a clock, .act a clock ∈ moves → ¬ (config.simulates = true ∧ clock = true)) →
        Event.distracted (fresh.published moves) = false) := by
  intro fresh s hactive hstopped
  have hfresh : fresh.Sound := sound_ofGraph graph config mint
  have hs : s.Sound := hfresh.after moves
  have hnone := hs.pause?_of_not_active hactive
  have hpending := Conversation.pending?_of_queue (hs.atPause.queue hnone)
  have hwaiting := (asHeard_ofGraph graph config mint moves).waiting
  refine ⟨?_, fun hother => ?_, fun huntimed => ?_⟩
  · rw [hpending, List.isSome_head?]
    exact hwaiting
  · have hrest := hs.atPause.rest hnone
    cases hp : s.state.phase <;> simp_all [Phase.isRest]
  · refine Event.distracted_eq_false (hfresh.distracts_of_mem_published rfl fun a clock hmem => ?_)
    simpa [fresh, isTimed, ofGraph] using huntimed a clock hmem

/-- The welcome waits for its answer, since nothing came after the question. -/
theorem waiting_iff_not_distracted_welcome :
    let s := (ofGraph welcome (.standard "s") (.ofNonce "n")).after
      (.act .start true :: List.replicate 5 (.proceed ⟨1⟩))
    s.state.isActive = false ∧ s.state.phase = .awaitingInterceptor := by
  intro s
  have hactive : s.state.isActive = false := by decide +kernel
  have h := (waiting_iff_not_distracted welcome (.standard "s") (.ofNonce "n")
    (.act .start true :: List.replicate 5 (.proceed ⟨1⟩)) hactive (by decide +kernel)).1
  exact ⟨hactive, h.mpr (by decide +kernel)⟩

end Session

def chattyFlow : Flow where
  steps := welcomeFlow.steps ++ [.turn "about" [.message "a" "A bot"]]
  connections := welcomeFlow.connections ++ [⟨"hello", "about", some "who"⟩]

def chatty : FlowGraph := ⟨chattyFlow, by decide +kernel, _, rfl, _, rfl⟩

/-- After another turn the conversation is idle, though its question is still pending. -/
theorem Session.idle_with_pending_question :
    let s := (ofGraph chatty (.standard "s") (.ofNonce "n")).after
      (.act .start true :: List.replicate 5 (.proceed ⟨1⟩) ++
        .act (.click "hello" (some "who") "Who are you?") true :: List.replicate 8 (.proceed ⟨2⟩))
    s.state.isActive = false ∧ s.state.pending?.isSome = true ∧ s.state.phase = .idle := by
  decide +kernel

end Dialogue
