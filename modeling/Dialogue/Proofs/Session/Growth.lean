import Mathlib.Data.List.Forall2
import Dialogue.Proofs.Conversation.Cut
import Dialogue.Proofs.Session.Log
import Dialogue.Proofs.Session.Question

/-! History only grows. What a move adds comes at the end, and what was there before stays, in order
and as it was, but for one question that goes when it is answered or replaced, the text that a stop
cuts, and what an edit of the flow changes or drops. -/

namespace Dialogue

def Step.isCondition : Step → Bool
  | condition .. => true
  | _ => false

namespace Entry

/-- Whether an entry has its place in a flow: steps that the flow has, questions of its conditions,
and all that no flow holds. -/
def staysIn (g : FlowGraph) : Entry → Bool
  | step s => g.contains s.id
  | interceptor i => (g.step? i.stepId).any Step.isCondition
  | feedback _ | userMessage _ => true

/-- What an edit makes of an entry that stays. -/
inductive Edited : Entry → Entry → Prop where
  | step {s s' : Step} (hid : s'.id = s.id) : Edited (step s) (step s')
  | interceptor (i : Interceptor) (branches : List Branch) :
      Edited (interceptor i) (interceptor { i with branches })
  | feedback (f : Feedback) : Edited (feedback f) (feedback f)
  | userMessage (m : UserMessage) : Edited (userMessage m) (userMessage m)

theorem Edited.cut {e e' : Entry} (h : Edited e e') (id : ComponentId) (text : String) (n : Nat) :
    Edited e (e'.cut id text n) := by
  cases h with
  | @step s s' hid => exact .step (by cases s' <;> exact hid)
  | interceptor i branches => exact .interceptor i branches
  | feedback f => exact .feedback f
  | userMessage m => exact .userMessage m

theorem edited_inEntries (id : ComponentId) (text : String) (n : Nat) {es es' : List Entry}
    (h : List.Forall₂ Edited es es') :
    List.Forall₂ Edited es (Cut.inEntries id text n es') := by
  induction h generalizing n with
  | nil => exact .nil
  | cons he hes ih =>
      simp only [Cut.inEntries]
      split
      · exact .cons (he.cut id text n) hes
      · exact .cons he (ih _)

theorem edited_recut (cuts : List Cut) {es es' : List Entry} (h : List.Forall₂ Edited es es') :
    List.Forall₂ Edited es (Conversation.recut cuts es') := by
  induction cuts generalizing es' with
  | nil => exact h
  | cons cut rest ih => exact ih (edited_inEntries _ _ _ h)

/-- An edit keeps just the entries that have their place in the new flow, in order. -/
theorem edited_filterMap_patch? (g : FlowGraph) (es : List Entry) :
    List.Forall₂ Edited (es.filter (staysIn g)) (es.filterMap (patch? g)) := by
  induction es with
  | nil => exact .nil
  | cons e rest ih =>
      have hdrop : e.staysIn g = false → e.patch? g = none → List.Forall₂ Edited
          ((e :: rest).filter (staysIn g)) ((e :: rest).filterMap (patch? g)) := by
        intro hs hp
        rw [List.filter_cons_of_neg (by simp [hs]), List.filterMap_cons_none hp]
        exact ih
      have hkeep : ∀ e', e.staysIn g = true → e.patch? g = some e' → Edited e e' →
          List.Forall₂ Edited ((e :: rest).filter (staysIn g))
            ((e :: rest).filterMap (patch? g)) := by
        intro e' hs hp he
        rw [List.filter_cons_of_pos hs, List.filterMap_cons_some hp]
        exact .cons he ih
      cases e with
      | step s =>
          cases hfound : g.step? s.id with
          | none =>
              refine hdrop ?_ (by simp [patch?, hfound])
              rw [staysIn, FlowGraph.contains, Keyed.contains]
              exact congrArg Option.isSome hfound
          | some fresh =>
              refine hkeep (.step fresh) ?_ (by simp [patch?, hfound])
                (.step (FlowGraph.step?_eq_some hfound).2)
              rw [staysIn, FlowGraph.contains, Keyed.contains]
              exact congrArg Option.isSome hfound
      | interceptor i =>
          cases hfound : g.step? i.stepId with
          | none => exact hdrop (by simp [staysIn, hfound]) (by simp [patch?, hfound])
          | some fresh =>
              cases fresh with
              | condition id branches =>
                  exact hkeep _ (by simp [staysIn, hfound, Step.isCondition])
                    (by simp [patch?, hfound]) (.interceptor i branches)
              | _ =>
                  exact hdrop (by simp [staysIn, hfound, Step.isCondition])
                    (by simp [patch?, hfound])
      | feedback f => exact hkeep _ rfl rfl (.feedback f)
      | userMessage m => exact hkeep _ rfl rfl (.userMessage m)

def Loses (i : Interceptor) (es es' : List Entry) : Prop :=
  ∃ front back, es = front ++ .interceptor i :: back ∧ es' = front ++ back

theorem exists_loses_eraseP {es : List Entry} {id : String}
    (h : ∃ e ∈ es, e.isInterceptor id = true) :
    ∃ i, i.id = id ∧ Loses i es (es.eraseP (isInterceptor id)) := by
  obtain ⟨e, he, hid⟩ := h
  obtain ⟨e, front, back, -, hid, hsplit, herase⟩ := List.exists_of_eraseP he hid
  obtain ⟨i, rfl, hi⟩ := exists_of_isInterceptor hid
  exact ⟨i, hi, front, back, hsplit, herase⟩

end Entry

namespace Conversation

theorem history_take? {c c' : Conversation} {id : String} {i : Interceptor}
    (h : c.take? id = some (i, c')) :
    c'.history = c.history ∨ ∃ j, j.id = id ∧ Entry.Loses j c.history c'.history := by
  rcases take?_eq_some h with ⟨hhistory, rfl⟩ | ⟨-, rfl⟩
  · exact .inr (Entry.exists_loses_eraseP hhistory)
  · exact .inl rfl

end Conversation

namespace Session

/-- What a move leaves of history. -/
inductive Leaves (s : Session) : Move → List Entry → Prop where
  | all {m : Move} (hreset : m ≠ .reset) (hedit : ∀ graph, m ≠ .setGraph graph) :
      Leaves s m s.state.history
  | answered (a : Act) (clock : Bool) (i : Interceptor) (kept : List Entry)
      (hanswer : s.answered? a = some i.id) (hloses : Entry.Loses i s.state.history kept) :
      Leaves s (.act a clock) kept
  | replaced (a : Act) (clock : Bool) (i j : Interceptor) (kept : List Entry)
      (hnewer : .interceptor j ∈ (s.plan a).batch) (hloses : Entry.Loses i s.state.history kept) :
      Leaves s (.act a clock) kept
  | cut (now : Timestamp) (w : Streaming) (front : List Entry) (id : StepId)
      (before : List Component) (d : Component) (after : List Component) (back : List Entry)
      (hw : s.state.streaming = some w) (hid : d.id = w.componentId)
      (hhistory : s.state.history = front ++ .step (.turn id (before ++ d :: after)) :: back) :
      Leaves s (.stop now)
        (front ++ .step (.turn id (before ++ d.withStreamedText w.text :: after)) :: back)
  | edited (graph : FlowGraph) (kept : List Entry)
      (hkept : List.Forall₂ Entry.Edited (s.state.history.filter (Entry.staysIn graph)) kept) :
      Leaves s (.setGraph graph) kept
  | forgotten : Leaves s .reset []

def isTimed (s : Session) (clock : Bool) : Bool := s.config.simulates && clock

def appends (s : Session) : Move → List Entry
  | .act a clock => if s.isTimed clock then [] else (s.plan a).batch
  | .stop now =>
    if s.state.isDelivering then [.feedback (s.mint.feedback Conversation.stoppedText now)] else []
  | .proceed run => (s.proceed run).1.state.history.drop s.state.history.length
  | .reset | .setGraph _ | .setVariable .. => []

theorem history_hand (s : Session) (batch : List Entry) (clock : Bool) :
    (s.hand batch clock).1.state.history =
      s.state.history ++ if s.isTimed clock then [] else batch := by
  rcases s.hand_cases batch clock with ⟨ht, he⟩ | ⟨ht, he⟩
  · have htimed : s.isTimed clock = false := by simpa [isTimed] using ht
    rw [he, htimed]
    exact Conversation.history_apply s.state batch
  · have htimed : s.isTimed clock = true := by simpa [isTimed] using ht
    rw [he, htimed, state_deliver]
    simp [Conversation.enqueue]

theorem isTimed_supersede (s : Session) (clock : Bool) :
    s.supersede.1.isTimed clock = s.isTimed clock := by
  unfold supersede
  split <;> rfl

theorem history_supersede (s : Session) :
    s.supersede.1.state.history = s.state.history ∨
      s.state.interceptors ≠ [] ∧ ∃ i,
        Entry.Loses i s.state.history s.supersede.1.state.history := by
  unfold supersede
  cases ht : s.state.takePending? with
  | none => exact .inl rfl
  | some taken =>
      obtain ⟨p, hpending, ht⟩ := Option.bind_eq_some_iff.mp ht
      rcases Conversation.history_take? ht with hsame | ⟨i, -, hloses⟩
      · exact .inl hsame
      · refine .inr ⟨fun hnone => ?_, i, hloses⟩
        rw [Conversation.pending?, hnone] at hpending
        cases hpending

theorem history_dispatch (s : Session) (batch : List Entry) (clock : Bool) :
    ∃ kept, (s.dispatch batch clock).1.state.history =
        kept ++ (if s.isTimed clock then [] else batch) ∧
      (kept = s.state.history ∨ s.state.interceptors ≠ [] ∧ ∃ i j, .interceptor j ∈ batch ∧
        Entry.Loses i s.state.history kept) := by
  unfold dispatch
  split
  · next hempty =>
    rw [List.isEmpty_iff.mp hempty]
    exact ⟨s.state.history, by simp, .inl rfl⟩
  · split
    · next hasks =>
      obtain ⟨e, he, hsome⟩ := List.any_eq_true.mp hasks
      obtain ⟨j, hj⟩ := Option.isSome_iff_exists.mp hsome
      have hnewer : .interceptor j ∈ batch :=
        Entry.mem_questions.mp (List.mem_filterMap.mpr ⟨e, he, hj⟩)
      refine ⟨s.supersede.1.state.history, ?_, ?_⟩
      · rw [← isTimed_supersede]
        exact s.supersede.1.history_hand batch clock
      · rcases s.history_supersede with hsame | ⟨hsome, i, hloses⟩
        · exact .inl hsame
        · exact .inr ⟨hsome, i, j, hnewer, hloses⟩
    · exact ⟨s.state.history, s.history_hand batch clock, .inl rfl⟩

theorem history_plan {s : Session} (h : s.state.AsksOnce) (a : Act) :
    (s.plan a).session.state.history = s.state.history ∨
      (s.plan a).session.state.interceptors = [] ∧ ∃ i, s.answered? a = some i.id ∧
        Entry.Loses i s.state.history (s.plan a).session.state.history := by
  rcases s.plan_cases a with ⟨_, -, hp⟩ | ⟨r, -, hp⟩ | ⟨text, r, -, hp⟩ | ⟨choice, ha, hp⟩
  · rw [hp]
    exact .inl rfl
  · rw [hp]
    exact .inl rfl
  · rw [hp]
    exact .inl rfl
  · let c := (s.state.resolve choice s.mint.interceptorId).2
    have hstate : (s.plan a).session.state.history = c.history ∧
        (s.plan a).session.state.interceptors = c.interceptors := by
      simp only [hp, planAnswer, c]
      cases (s.state.resolve choice s.mint.interceptorId).1 <;> exact ⟨rfl, rfl⟩
    rw [hstate.1, hstate.2]
    simp only [c, Conversation.resolve]
    split
    · exact .inl rfl
    · next i taken ht =>
      have hnone := h.interceptors_take? ht
      have hshort : taken.history = s.state.history ∨ taken.interceptors = [] ∧
          ∃ i, s.answered? a = some i.id ∧ Entry.Loses i s.state.history taken.history := by
        rcases Conversation.history_take? ht with hsame | ⟨i, hid, hloses⟩
        · exact .inl hsame
        · exact .inr ⟨hnone, i, by rw [ha, hid], hloses⟩
      split <;> exact hshort

theorem isTimed_plan (s : Session) (a : Act) (clock : Bool) :
    (s.plan a).session.isTimed clock = s.isTimed clock := by
  obtain ⟨_, _, hplan⟩ := s.exists_session_plan a
  rw [hplan]
  rfl

theorem isTimed_perform (s : Session) (m : Move) (clock : Bool) :
    (s.perform m).session.isTimed clock = s.isTimed clock := by
  rw [isTimed, config_perform, isTimed]

/-- An act takes one question out of history at most. -/
theorem history_act {s : Session} (h : s.state.AsksOnce) (a : Act) (clock : Bool) :
    ∃ kept, s.Leaves (.act a clock) kept ∧
      (s.act clock a).session.state.history = kept ++ s.appends (.act a clock) := by
  obtain ⟨kept, hhistory, hkept⟩ := (s.plan a).session.history_dispatch (s.plan a).batch clock
  rw [isTimed_plan] at hhistory
  refine ⟨kept, ?_,
    (congrArg (·.session.state.history) (s.act_eq_carryOut a clock)).trans hhistory⟩
  -- an answer leaves no question for the batch to replace, so only one of the two ever goes
  rcases history_plan h a with hsame | ⟨hnone, i, hanswered, hloses⟩
  · rw [hsame] at hkept
    rcases hkept with rfl | ⟨-, i, j, hnewer, hloses⟩
    · exact .all nofun nofun
    · exact .replaced a clock i j kept hnewer hloses
  · rcases hkept with rfl | ⟨hsome, -⟩
    · exact .answered a clock i _ hanswered hloses
    · exact absurd hnone hsome

/-- A stop cuts the text on its way, and says so at the end of history. -/
theorem history_stop (s : Session) (now : Timestamp) :
    ∃ kept, s.Leaves (.stop now) kept ∧
      (s.stop now).session.state.history = kept ++ s.appends (.stop now) := by
  simp only [appends]
  rcases s.stop_cases now with ⟨hd, he⟩ | ⟨hd, he⟩
  · exact ⟨s.state.history, .all nofun nofun, by simp [he, hd]⟩
  · rw [he, hd]
    refine ⟨_, ?_, rfl⟩
    cases hc : s.state.cut? with
    | none => exact .all nofun nofun
    | some cut =>
        obtain ⟨w, hw, hcut⟩ := Option.bind_eq_some_iff.mp hc
        obtain ⟨n, rfl⟩ : ∃ n, cut = ⟨w.componentId, n, w.text⟩ := by
          unfold Cut.ofNewest? at hcut
          split at hcut <;> cases hcut
          exact ⟨_, rfl⟩
        rcases Cut.inEntries_cases w.componentId w.text n s.state.history with
          hsame | ⟨front, id, before, d, after, back, hhistory, hid, hcut⟩
        · simp only [Option.elim, Cut.apply, hsame]
          exact .all nofun nofun
        · simp only [Option.elim, Cut.apply, hcut]
          exact .cut now w front id before d after back hw hid hhistory

/-- What a move leaves of history stands in front of what it appends. -/
theorem history_perform {s : Session} (h : s.state.AsksOnce) (m : Move) :
    ∃ kept, s.Leaves m kept ∧ (s.perform m).session.state.history = kept ++ s.appends m := by
  cases m with
  | act a clock => exact history_act h a clock
  | stop now => exact s.history_stop now
  | reset => exact ⟨[], .forgotten, rfl⟩
  | setGraph graph =>
      refine ⟨_, .edited graph _ ?_, (List.append_nil _).symm⟩
      exact Entry.edited_recut s.state.cuts (Entry.edited_filterMap_patch? graph s.state.history)
  | setVariable name value =>
      exact ⟨s.state.history, .all nofun nofun, (List.append_nil _).symm⟩
  | proceed run =>
      refine ⟨s.state.history, .all nofun nofun, ?_⟩
      exact (List.prefix_iff_eq_append.mp (s.history_prefix_proceed run)).symm

/-- Whatever the moves before it, a move appends to history, and takes nothing from it but what is
listed for moves of its kind. -/
theorem history_only_grows (graph : FlowGraph) (config : Config) (mint : Mint)
    (moves : List Move) (m : Move) :
    let s := (ofGraph graph config mint).after moves
    ∃ kept, s.Leaves m kept ∧ (s.perform m).session.state.history = kept ++ s.appends m :=
  history_perform (asksOnce_after moves Conversation.asksOnce_empty) m

end Session

end Dialogue
