import Dialogue.Proofs.Conversation.Cut
import Dialogue.Proofs.Session.Outlook
import Dialogue.Proofs.Session.Stride
import Dialogue.Proofs.Traversal.Ending

/-! At most one question is pending. A run neither raises nor drops a question. What the user does
raises one at most, and the one before it goes first; so history and queue never hold two, and while
the conversation waits for an answer its question is in history. -/

namespace Dialogue

namespace Interceptor

/-- Whether the question is asked for a condition of the flow, with all its branches. -/
def IsOf (g : FlowGraph) (i : Interceptor) : Prop :=
  g.step? i.stepId = some (.condition i.stepId i.branches)

instance (g : FlowGraph) (i : Interceptor) : Decidable (i.IsOf g) :=
  inferInstanceAs (Decidable (_ = _))

end Interceptor

namespace Entry

def questions (es : List Entry) : List Interceptor := es.filterMap interceptor?

@[simp] theorem questions_nil : questions [] = [] := rfl

@[simp] theorem questions_append (es es' : List Entry) :
    questions (es ++ es') = questions es ++ questions es' := by
  simp [questions]

theorem questions_cons (e : Entry) (es : List Entry) :
    questions (e :: es) = e.interceptor?.toList ++ questions es := by
  cases h : e.interceptor? <;> simp [questions, h]

theorem mem_questions {es : List Entry} {i : Interceptor} :
    i ∈ questions es ↔ .interceptor i ∈ es := by
  simp [questions, interceptor?_eq_some_iff]

theorem length_questions_eraseP {es : List Entry} {id : String}
    (h : ∃ e ∈ es, e.isInterceptor id = true) :
    (questions (es.eraseP (isInterceptor id))).length + 1 = (questions es).length := by
  obtain ⟨e, he, hid⟩ := h
  obtain ⟨e, front, back, -, hid, hsplit, herase⟩ := List.exists_of_eraseP he hid
  obtain ⟨i, rfl, -⟩ := exists_of_isInterceptor hid
  rw [herase, hsplit]
  simp only [questions_append, questions_cons, interceptor?, Option.toList, List.length_append,
    List.length_singleton]
  omega

theorem questions_recut (cuts : List Cut) (es : List Entry) :
    questions (Conversation.recut cuts es) = questions es :=
  Conversation.filterMap_recut interceptor?_cut cuts es

theorem length_questions_patch (g : FlowGraph) (es : List Entry) :
    (questions (es.filterMap (patch? g))).length ≤ (questions es).length := by
  have hpatch : ∀ e e' : Entry, e.patch? g = some e' →
      e'.interceptor?.toList.length = e.interceptor?.toList.length := by
    intro e e' h
    cases e with
    | step s =>
        obtain ⟨fresh, -, rfl⟩ := Option.map_eq_some_iff.mp h
        rfl
    | interceptor i =>
        simp only [patch?] at h
        split at h <;> cases h
        rfl
    | _ =>
        cases h
        rfl
  induction es with
  | nil => exact Nat.le_refl _
  | cons e rest ih =>
      cases he : e.patch? g with
      | none =>
          rw [List.filterMap_cons_none he, questions_cons, List.length_append]
          omega
      | some e' =>
          have hlength := hpatch e e' he
          rw [List.filterMap_cons_some he, questions_cons, questions_cons, List.length_append,
            List.length_append]
          omega

theorem isOf_of_mem_questions_patch {g : FlowGraph} {es : List Entry} {i : Interceptor}
    (h : i ∈ questions (es.filterMap (patch? g))) : i.IsOf g := by
  obtain ⟨e, -, he⟩ := List.mem_filterMap.mp (mem_questions.mp h)
  cases e with
  | step s =>
      obtain ⟨fresh, -, hstep⟩ := Option.map_eq_some_iff.mp he
      cases hstep
  | interceptor j =>
      simp only [patch?] at he
      split at he
      · next id branches hfound =>
        cases he
        obtain rfl : id = j.stepId := (FlowGraph.step?_eq_some hfound).2
        exact hfound
      · cases he
  | _ => cases he

end Entry

namespace Conversation

theorem interceptors_eq (c : Conversation) :
    c.interceptors = Entry.questions c.history ++ Entry.questions c.queue :=
  Entry.questions_append c.history c.queue

theorem mem_interceptors {c : Conversation} {i : Interceptor} :
    i ∈ c.interceptors ↔ .interceptor i ∈ c.history ∨ .interceptor i ∈ c.queue :=
  Entry.mem_questions.trans List.mem_append

theorem phaseWithout_ne (c : Conversation) : c.phaseWithout ≠ .awaitingInterceptor := by
  unfold phaseWithout
  split
  · nofun
  · assumption

theorem exists_of_take? {c c' : Conversation} {id : String} {i : Interceptor}
    (h : c.take? id = some (i, c')) : ∃ e ∈ c.history ++ c.queue, e.isInterceptor id = true := by
  have hany := fun es => find?_isInterceptor es id
  unfold take? at h
  split at h
  · next hj =>
    have hfound := hany c.history
    rw [hj] at hfound
    obtain ⟨e, he, hid⟩ := List.any_eq_true.mp hfound.symm
    exact ⟨e, List.mem_append_left _ he, hid⟩
  · split at h
    · next hj =>
      have hfound := hany c.queue
      rw [hj] at hfound
      obtain ⟨e, he, hid⟩ := List.any_eq_true.mp hfound.symm
      exact ⟨e, List.mem_append_right _ he, hid⟩
    · cases h

theorem length_interceptors_take? {c c' : Conversation} {id : String} {i : Interceptor}
    (h : c.take? id = some (i, c')) : c'.interceptors.length + 1 = c.interceptors.length := by
  obtain ⟨e, he, hid⟩ := exists_of_take? h
  rw [interceptors_eq, interceptors_eq, List.length_append, List.length_append]
  rcases take?_eq_some h with ⟨hhistory, rfl⟩ | ⟨hhistory, rfl⟩
  · have hless := Entry.length_questions_eraseP hhistory
    simp only
    omega
  · have hqueue : e ∈ c.queue :=
      (List.mem_append.mp he).resolve_left fun he => hhistory e he hid
    have hless := Entry.length_questions_eraseP ⟨e, hqueue, hid⟩
    simp only
    omega

/-- Whether one question at most is pending, and is in history while it is waited for. -/
structure AsksOnce (c : Conversation) : Prop where
  single : c.interceptors.length ≤ 1
  waiting : c.phase = .awaitingInterceptor → ∃ i, .interceptor i ∈ c.history

theorem asksOnce_empty : empty.AsksOnce := ⟨Nat.zero_le 1, fun hp => by cases hp⟩

theorem AsksOnce.frame {c c' : Conversation} (h : c.AsksOnce)
    (interceptors : c'.interceptors = c.interceptors)
    (history : ∀ i, .interceptor i ∈ c.history → .interceptor i ∈ c'.history)
    (phase : c'.phase = .awaitingInterceptor → c.phase = .awaitingInterceptor) : c'.AsksOnce := by
  refine ⟨interceptors ▸ h.single, fun hp => ?_⟩
  obtain ⟨i, hi⟩ := h.waiting (phase hp)
  exact ⟨i, history i hi⟩

theorem AsksOnce.interceptors_take? {c c' : Conversation} (h : c.AsksOnce) {id : String}
    {i : Interceptor} (ht : c.take? id = some (i, c')) : c'.interceptors = [] := by
  have hless := length_interceptors_take? ht
  have hsingle := h.single
  exact List.eq_nil_of_length_eq_zero (by omega)

theorem AsksOnce.take? {c c' : Conversation} (h : c.AsksOnce) {id : String} {i : Interceptor}
    (ht : c.take? id = some (i, c')) : c'.AsksOnce := by
  refine ⟨by simp [h.interceptors_take? ht], fun hp => ?_⟩
  have hphase : c'.phase = c.phaseWithout := by rw [take?_frame ht]
  exact absurd (hphase.symm.trans hp) c.phaseWithout_ne

theorem AsksOnce.resolve {c : Conversation} (h : c.AsksOnce) (ch : Choice) (freshId : String) :
    (c.resolve ch freshId).2.AsksOnce := by
  unfold Conversation.resolve
  split
  · exact h
  · next i c' ht =>
    have htaken := h.take? ht
    split
    · exact htaken
    · exact htaken.frame rfl (fun _ hi => hi) id

/-- A run neither raises nor drops a question. -/
theorem Stride.interceptors_eq {c c' : Conversation} {p : Pause} {p' : Option Pause}
    (hs : Stride c p c' p') : c'.interceptors = c.interceptors := by
  rw [Conversation.interceptors_eq, Conversation.interceptors_eq]
  cases hs with
  | commit e rest hqueue hturn =>
      rw [history_commit, hqueue, Entry.questions_cons, Entry.questions_append, List.append_assoc,
        Entry.questions_cons e []]
      simp
  | take id components rest hqueue =>
      rw [hqueue, Entry.questions_cons]
      rfl
  | openTurn id components =>
      rw [history_commit, Entry.questions_append, List.append_assoc]
      rfl
  | _ => rfl

theorem Beat.interceptors_eq {run : Run} {c c' : Conversation} {p : Pause} {events : List Event}
    {p' : Option Pause} (hbeat : Beat run c p events c' p') : c'.interceptors = c.interceptors :=
  hbeat.stride_induction run (I := fun c' _ => c'.interceptors = c.interceptors)
    (fun h hs => hs.interceptors_eq.trans h) rfl

theorem Shift.mem_interceptors {early : Bool} {P : Entry → Prop} {c c' : Conversation}
    {p p' : Option Pause} (hs : Shift early P c p c' p') {i : Interceptor}
    (hi : i ∈ c'.interceptors) :
    i ∈ c.interceptors ∨ P (.interceptor i) := by
  rw [Conversation.mem_interceptors] at hi ⊢
  cases hs with
  | take id j c' htake =>
      rcases take?_eq_some htake with ⟨-, rfl⟩ | ⟨-, rfl⟩
      · exact .inl (hi.imp_left List.mem_of_mem_eraseP)
      · exact .inl (hi.imp_right List.mem_of_mem_eraseP)
  | assign store cursor => exact .inl hi
  | commitShown e hentry hplace =>
      rcases hi with hi | hi
      · rcases List.mem_append.mp hi with hi | hi
        · exact .inl (.inl hi)
        · exact .inr (List.mem_singleton.mp hi ▸ hentry)
      · exact .inl (.inr hi)
  | enqueue batch hbatch =>
      rcases hi with hi | hi
      · exact .inl (.inl hi)
      · rcases List.mem_append.mp hi with hi | hi
        · exact .inl (.inr hi)
        · exact .inr (hbatch _ hi)

theorem AsksOnce.beat {run : Run} {c c' : Conversation} {p : Pause} {events : List Event}
    {p' : Option Pause} (hbeat : Beat run c p events c' p') (h : c.AsksOnce) : c'.AsksOnce := by
  have hsame := hbeat.interceptors_eq
  cases hbeat with
  | commit e rest hqueue hturn =>
      cases he : e.interceptor? with
      | none =>
          refine h.frame hsame (fun i hi => List.mem_append_left _ hi) fun hp => ?_
          simpa [commit, he] using hp
      | some i =>
          refine ⟨hsame ▸ h.single, fun _ => ⟨i, Entry.mem_questions.mp ?_⟩⟩
          simp [Entry.questions, he]
  | openTurn id components =>
      exact h.frame hsame (fun i hi => List.mem_append_left _ hi) fun hp => hp
  | settle hqueue =>
      refine h.frame hsame (fun i hi => hi) fun hp => ?_
      simpa [settle] using hp
  | reveal d rest => exact h.frame hsame (fun i hi => hi) fun hp => hp
  | push d ch ch' chars rest => exact h.frame hsame (fun i hi => hi) fun hp => hp
  | finish d ch rest => exact h.frame hsame (fun i hi => hi) fun hp => hp
  | _ => exact h.frame hsame (fun i hi => hi) fun hp => by cases hp

@[simp] theorem queue_apply (c : Conversation) (batch : List Entry) :
    (c.apply batch).queue = c.queue := by
  induction batch generalizing c with
  | nil => rfl
  | cons e rest ih => exact ih (c.commitShown e)

/-- Only a question among what is committed makes the conversation wait. -/
theorem phase_apply {c : Conversation} {batch : List Entry}
    (h : (c.apply batch).phase = .awaitingInterceptor) :
    c.phase = .awaitingInterceptor ∨ ∃ i, .interceptor i ∈ batch := by
  induction batch generalizing c with
  | nil => exact .inl h
  | cons e rest ih =>
      rcases ih h with hphase | ⟨i, hi⟩
      · cases e with
        | interceptor i => exact .inr ⟨i, List.mem_cons_self⟩
        | _ => exact .inl hphase
      · exact .inr ⟨i, List.mem_cons_of_mem _ hi⟩

section Batch

variable {c : Conversation} {batch : List Entry} (h : c.AsksOnce)
  (hsingle : (c.interceptors ++ Entry.questions batch).length ≤ 1)

include h hsingle

theorem AsksOnce.apply : (c.apply batch).AsksOnce := by
  refine ⟨?_, fun hp => ?_⟩
  · simp only [interceptors_eq, history_apply, queue_apply, Entry.questions_append,
      List.length_append] at hsingle ⊢
    omega
  · rw [history_apply]
    rcases phase_apply hp with hphase | ⟨i, hi⟩
    · obtain ⟨i, hi⟩ := h.waiting hphase
      exact ⟨i, List.mem_append_left _ hi⟩
    · exact ⟨i, List.mem_append_right _ hi⟩

theorem AsksOnce.enqueue : (c.enqueue batch).AsksOnce := by
  refine ⟨?_, h.waiting⟩
  simp only [interceptors_eq, Conversation.enqueue, Entry.questions_append,
    List.length_append] at hsingle ⊢
  omega

end Batch

/-- A stop leaves the questions in history and forgets those that wait. -/
theorem interceptors_halt (c : Conversation) (marker : Feedback) :
    (c.halt marker).interceptors = Entry.questions c.history := by
  have hqueue : (c.halt marker).queue = [] := rfl
  rw [interceptors_eq, hqueue, history_halt, Entry.questions_append, Entry.questions_recut]
  simp [Entry.questions_cons, Entry.interceptor?]

theorem AsksOnce.halt {c : Conversation} (h : c.AsksOnce) (marker : Feedback) :
    (c.halt marker).AsksOnce := by
  refine ⟨?_, fun hp => by cases hp⟩
  have hsingle := h.single
  rw [interceptors_eq, List.length_append] at hsingle
  rw [interceptors_halt]
  omega

/-- If an edit takes the question away that is waited for, the conversation waits no more. -/
theorem AsksOnce.resync {c : Conversation} (h : c.AsksOnce) (g : FlowGraph) :
    (c.resync g).AsksOnce := by
  have hhistory : Entry.questions (c.resync g).history =
      Entry.questions (c.history.filterMap (Entry.patch? g)) := Entry.questions_recut c.cuts _
  have hkept := Entry.length_questions_patch g c.history
  have hqueued := Entry.length_questions_patch g c.queue
  have hsingle := h.single
  rw [interceptors_eq, List.length_append] at hsingle
  refine ⟨?_, fun hp => ?_⟩
  · rw [interceptors_eq, hhistory, List.length_append]
    simp only [Conversation.resync]
    omega
  · obtain ⟨hasks, hphase⟩ : ((c.resync g).history ++ (c.resync g).queue).any
        (fun e => e.interceptor?.isSome) = true ∧ c.phase = .awaitingInterceptor := by
      simp only [Conversation.resync] at hp ⊢
      split at hp
      · next hasks => exact ⟨hasks, hp⟩
      · exact absurd hp c.phaseWithout_ne
    -- the question waited for is in history, so none is in the queue that could be left alone
    obtain ⟨i, hi⟩ := h.waiting hphase
    have hone : 0 < (Entry.questions c.history).length :=
      List.length_pos_of_mem (Entry.mem_questions.mpr hi)
    obtain ⟨e, he, hsome⟩ := List.any_eq_true.mp hasks
    obtain ⟨j, hj⟩ := Option.isSome_iff_exists.mp hsome
    have hmem : ∀ es : List Entry, e ∈ es → j ∈ Entry.questions es := fun es he =>
      List.mem_filterMap.mpr ⟨e, he, hj⟩
    rcases List.mem_append.mp he with he | he
    · exact ⟨j, Entry.mem_questions.mp (hmem _ he)⟩
    · have htwo : 0 < (Entry.questions (c.queue.filterMap (Entry.patch? g))).length :=
        List.length_pos_of_mem (hmem _ he)
      omega

end Conversation

/-! ### What acts ask -/

namespace Walker

/-- A walk that goes on from a step has asked nothing there. -/
theorem questions_arrive_of_ok {w : Walker} {input : Option String} {bubbleShown : Bool} {s : Step}
    {entries : List Entry} {handle : Option String}
    (h : w.arrive input bubbleShown s = (entries, .ok handle)) : Entry.questions entries = [] :=
  List.filterMap_eq_nil_iff.mpr fun e he => (leaves_of_arrive h e he).1

theorem Ending.length_questions_le {w : Walker} {cursor : StepId} {stop : StopReason}
    {last : List Entry} (h : w.Ending cursor stop last) : (Entry.questions last).length ≤ 1 := by
  cases h with
  | asking hs hname => exact Nat.le_refl 1
  | _ => exact Nat.zero_le 1

/-- A walk asks one question at most. -/
theorem length_questions_walk (w : Walker) (cursor : StepId) (handle input : Option String)
    (bubbleShown : Bool) (hops : Nat) :
    (Entry.questions (w.walk cursor handle input bubbleShown hops).entries).length ≤ 1 := by
  obtain ⟨left, last, hentries, hleft, hending⟩ :=
    w.exists_ending cursor handle input bubbleShown hops
  have hunasked : Entry.questions left = [] :=
    List.filterMap_eq_nil_iff.mpr fun e he => (hleft e he).1
  rw [hentries, Entry.questions_append, hunasked, List.nil_append]
  exact hending.length_questions_le

/-- A walk asks for conditions of the flow. -/
theorem isOf_of_mem_questions_walk (w : Walker) (cursor : StepId) (handle input : Option String)
    (bubbleShown : Bool) (hops : Nat) :
    ∀ i ∈ Entry.questions (w.walk cursor handle input bubbleShown hops).entries,
      i.IsOf w.graph :=
  fun _ hi => (asksLast_of_mem_walk (Entry.mem_questions.mp hi)).step?_eq

end Walker

namespace Session

theorem length_questions_planWalk (s : Session) (r : TraversalRequest) {before : List Entry}
    (hbefore : Entry.questions before = []) :
    (Entry.questions (s.planWalk r before).batch).length ≤ 1 := by
  simp only [planWalk, Entry.questions_append, hbefore, List.nil_append]
  exact s.walker.length_questions_walk _ _ _ _ _

theorem length_questions_plan (s : Session) (a : Act) :
    (Entry.questions (s.plan a).batch).length ≤ 1 := by
  rcases s.plan_cases a with ⟨_, -, hp⟩ | ⟨r, -, hp⟩ | ⟨text, r, -, hp⟩ | ⟨choice, -, hp⟩
  · rw [hp]
    exact Nat.zero_le 1
  · rw [hp]
    exact s.length_questions_planWalk r rfl
  · rw [hp]
    exact (s.bubble text).2.length_questions_planWalk r rfl
  · simp only [hp, planAnswer, planResumption]
    cases (s.state.resolve choice s.mint.interceptorId).1 with
    | resume origin handle written =>
        exact length_questions_planWalk { s with state := _, mint := _ } _ rfl
    | stillMissing question written => exact Nat.le_refl 1
    | noBranch written => exact Nat.zero_le 1
    | stale => exact Nat.zero_le 1

variable {s : Session}

theorem asksOnce_plan (a : Act) (h : s.state.AsksOnce) : (s.plan a).session.state.AsksOnce := by
  rcases s.plan_cases a with ⟨_, -, hp⟩ | ⟨r, -, hp⟩ | ⟨text, r, -, hp⟩ | ⟨choice, -, hp⟩
  · rw [hp]
    exact h
  · rw [hp]
    exact h.frame rfl (fun _ hi => hi) id
  · rw [hp]
    exact h.frame rfl (fun _ hi => hi) id
  · have hresolved := h.resolve choice s.mint.interceptorId
    simp only [hp, planAnswer]
    cases (s.state.resolve choice s.mint.interceptorId).1 with
    | resume origin handle written => exact hresolved.frame rfl (fun _ hi => hi) id
    | _ => exact hresolved

theorem interceptors_supersede (h : s.state.AsksOnce) : s.supersede.1.state.interceptors = [] := by
  unfold supersede
  split
  · next i state hp =>
    obtain ⟨j, -, ht⟩ := Option.bind_eq_some_iff.mp hp
    exact h.interceptors_take? ht
  · next hp =>
    cases hi : s.state.pending? with
    | none => exact List.head?_eq_none_iff.mp hi
    | some i =>
        obtain ⟨j, c, ht⟩ := Conversation.exists_take?_of_pending? hi
        simp [Conversation.takePending?, hi, ht] at hp

theorem asksOnce_supersede (h : s.state.AsksOnce) : s.supersede.1.state.AsksOnce := by
  unfold supersede
  split
  · next i state hp =>
    obtain ⟨j, -, ht⟩ := Option.bind_eq_some_iff.mp hp
    exact h.take? ht
  · exact h

theorem asksOnce_hand {batch : List Entry} (h : s.state.AsksOnce)
    (hsingle : (s.state.interceptors ++ Entry.questions batch).length ≤ 1) (clock : Bool) :
    (s.hand batch clock).1.state.AsksOnce := by
  rcases s.hand_cases batch clock with ⟨-, he⟩ | ⟨-, he⟩
  · rw [he]
    exact h.apply hsingle
  · have henqueue := h.enqueue hsingle
    rw [he]
    cases ha : s.state.isActive with
    | true =>
        rw [deliver_of_active batch ha]
        exact henqueue
    | false =>
        rw [deliver_of_not_active batch ha]
        exact henqueue.frame rfl (fun _ hi => hi) id

theorem asksOnce_dispatch {batch : List Entry} (h : s.state.AsksOnce)
    (hbatch : (Entry.questions batch).length ≤ 1) (clock : Bool) :
    (s.dispatch batch clock).1.state.AsksOnce := by
  unfold dispatch
  split
  · exact h
  · split
    · refine asksOnce_hand (asksOnce_supersede h) ?_ clock
      rw [interceptors_supersede h]
      exact hbatch
    · next hnone =>
      have hquestions : Entry.questions batch = [] := by
        simpa [Entry.questions, List.filterMap_eq_nil_iff] using hnone
      refine asksOnce_hand h ?_ clock
      rw [hquestions, List.append_nil]
      exact h.single

theorem asksOnce_perform (m : Move) (h : s.state.AsksOnce) :
    (s.perform m).session.state.AsksOnce := by
  cases m with
  | act a clock =>
      simp only [perform, Response.session_map, act_eq_carryOut]
      exact asksOnce_dispatch (asksOnce_plan a h) (s.length_questions_plan a) clock
  | stop now =>
      simp only [perform, Response.session_map]
      rcases s.stop_cases now with ⟨-, he⟩ | ⟨-, he⟩
      · rw [he]
        exact h
      · rw [he]
        exact h.halt _
  | reset => exact Conversation.asksOnce_empty
  | setGraph graph => exact h.resync graph
  | setVariable name value => exact h.frame rfl (fun _ hi => hi) id
  | proceed run =>
      simp only [perform]
      rcases s.proceed_cases run with he | ⟨p, -, -, he⟩ | ⟨-, he⟩
      · rw [he]
        exact h
      · rw [he]
        exact (Conversation.beats_resumeFrom s.live s.state p).invariant s.live
          (I := fun c _ => c.AsksOnce) Conversation.AsksOnce.beat h
      · rw [he]
        exact h

theorem asksOnce_after (moves : List Move) (h : s.state.AsksOnce) :
    (s.after moves).state.AsksOnce :=
  after_induction (P := fun s => s.state.AsksOnce) moves h fun _ m _ => asksOnce_perform m

/-- History and queue together hold one question at most, and while the conversation waits for an
answer this question is in history. -/
theorem one_question_at_most (graph : FlowGraph) (config : Config) (mint : Mint)
    (moves : List Move) :
    let c := ((ofGraph graph config mint).after moves).state
    (Entry.questions (c.history ++ c.queue)).length ≤ 1 ∧
      (c.phase = .awaitingInterceptor →
        ∃ i, .interceptor i ∈ c.history ∧ Entry.questions (c.history ++ c.queue) = [i]) := by
  intro c
  have h : c.AsksOnce := asksOnce_after moves Conversation.asksOnce_empty
  have hsingle : (Entry.questions (c.history ++ c.queue)).length ≤ 1 := h.single
  refine ⟨hsingle, fun hp => ?_⟩
  obtain ⟨i, hi⟩ := h.waiting hp
  refine ⟨i, hi, ?_⟩
  have hmem : i ∈ Entry.questions (c.history ++ c.queue) :=
    Entry.mem_questions.mpr (List.mem_append_left _ hi)
  obtain ⟨j, hj⟩ := List.length_eq_one_iff.mp
    (Nat.le_antisymm hsingle (List.length_pos_of_mem hmem))
  rw [hj] at hmem ⊢
  rw [List.mem_singleton.mp hmem]

/-- The welcome waits for an answer to the one question that it asks. -/
theorem one_question_at_most_welcome :
    let c := ((ofGraph welcome (.standard "s") (.ofNonce "n")).after [.act .start false]).state
    c.phase = .awaitingInterceptor ∧
      ∃ i, .interceptor i ∈ c.history ∧ Entry.questions (c.history ++ c.queue) = [i] := by
  intro c
  have hphase : c.phase = .awaitingInterceptor := by decide +kernel
  exact ⟨hphase, (one_question_at_most welcome (.standard "s") (.ofNonce "n")
    [.act .start false]).2 hphase⟩

end Session

end Dialogue
