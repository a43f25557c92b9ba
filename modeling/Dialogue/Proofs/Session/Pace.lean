import Dialogue.Proofs.Conversation.Rename
import Dialogue.Proofs.Session.Outlook

/-! Delivery with pauses comes to the same as delivery at once. Two sessions are alike if, but for
the ids that they make up, they come to the same once all is delivered. What a user does keeps them
alike, and so does a run that goes on in one of them. -/

namespace Dialogue

@[simp] theorem Entry.isQuestion_rename (f : String → String) (e : Entry) :
    (e.rename f).isQuestion = e.isQuestion := by
  simp [isQuestion]

namespace Outlook

variable (f : String → String)

def rename (o : Outlook) : Outlook :=
  { o with history := o.history.map (Entry.rename f) }

theorem pending?_rename (o : Outlook) :
    (o.rename f).pending? = o.pending?.map (Interceptor.rename f) := by
  simp only [pending?, rename]
  rw [Entry.filterMap_interceptor?_rename, List.head?_map]

theorem rename_withoutPending (o : Outlook) :
    o.withoutPending.rename f = (o.rename f).withoutPending := by
  have hquestion : Entry.isQuestion ∘ Entry.rename f = Entry.isQuestion :=
    funext (Entry.isQuestion_rename f)
  simp only [withoutPending, rename]
  rw [List.eraseP_map, hquestion]

theorem rename_extend (o : Outlook) (batch : List Entry) :
    (o.extend batch).rename f = (o.rename f).extend (batch.map (Entry.rename f)) := by
  have hany : (batch.map (Entry.rename f)).any Entry.isQuestion = batch.any Entry.isQuestion := by
    simp [List.any_map, Function.comp_def]
  have hshown : Entry.shown (batch.map (Entry.rename f)) = Entry.shown batch := by
    simp [Entry.shown, List.flatMap_map]
  have hadd : ∀ o : Outlook,
      (o.add batch).rename f = (o.rename f).add (batch.map (Entry.rename f)) := by
    intro o
    simp [add, rename, hshown]
  simp only [extend, hany, hadd]
  split
  · rw [rename_withoutPending]
  · rfl

def answer (o : Outlook) (i : Interceptor) (value freshId : String) : Resumption × Outlook :=
  let ch := Choice.answer i value
  if value = Choice.defaultValue then (ch.resumeByDefault, o.withoutPending)
  else
    let written := Variable.text i.variableName value
    let store := o.store.set written
    (ch.resumeUnder store written freshId, { o.withoutPending with store })

end Outlook

/-- What an answer comes to is the same for questions that differ by their ids. -/
theorem Outlook.rename_answer {f : String → String} {o o' : Outlook} {i i' : Interceptor}
    {id id' : String} (ho : o.rename f = o'.rename f) (hi : i.rename f = i'.rename f)
    (hid : f id = f id') (value : String) :
    (o.answer i value id).1.rename f = (o'.answer i' value id').1.rename f ∧
      (o.answer i value id).2.rename f = (o'.answer i' value id').2.rename f := by
  obtain ⟨h, vs, shown, cursor⟩ := o
  obtain ⟨h', vs', shown', cursor'⟩ := o'
  obtain ⟨j, name, branches, step⟩ := i
  obtain ⟨j', name', branches', step'⟩ := i'
  have hwithout := congrArg Outlook.withoutPending ho
  rw [← rename_withoutPending, ← rename_withoutPending] at hwithout
  simp only [rename, withoutPending, mk.injEq] at ho hwithout
  simp only [Interceptor.rename, Interceptor.mk.injEq] at hi
  obtain ⟨-, rfl, rfl, rfl⟩ := ho
  obtain ⟨-, rfl, rfl, rfl⟩ := hi
  unfold answer
  split
  · refine ⟨?_, by simp [rename, withoutPending, hwithout.1]⟩
    rfl
  · refine ⟨?_, by simp [rename, withoutPending, hwithout.1]⟩
    simp only [Choice.resumeUnder, Choice.answer]
    cases Condition.resolve branches (vs.set (.text name value)) (some value) with
    | missing name => simp [Resumption.rename, Interceptor.rename, hid]
    | _ => rfl

/-- An answer to the pending question leaves the outlook as if all had been delivered before. -/
theorem Conversation.outlook_resolve {c : Conversation} {i : Interceptor} (p : Option Pause)
    (h : c.pending? = some i) (value freshId : String) :
    (c.resolve (.answer i value) freshId).1 = ((c.outlook p).answer i value freshId).1 ∧
      (c.resolve (.answer i value) freshId).2.outlook p =
        ((c.outlook p).answer i value freshId).2 := by
  obtain ⟨j, c', ht⟩ := exists_take?_of_pending? h
  have hpending : (c.outlook p).pending? = some i := (c.pending?_outlook p).trans h
  have houtlook := outlook_take? p ht
  rw [Outlook.without_of_pending? hpending] at houtlook
  have hstore : c'.store = c.store := by rw [take?_frame ht]
  have hid : (Choice.answer i value).interceptorId = i.id := rfl
  have hvalue : (Choice.answer i value).value = value := rfl
  have hname : (Choice.answer i value).variableName = i.variableName := rfl
  simp only [resolve, Outlook.answer, hid, ht, hvalue, hname]
  by_cases hd : value = Choice.defaultValue
  · simp only [hd, if_true, true_and]
    exact houtlook
  · simp only [hd, if_false, ← houtlook]
    simp [setVariable, hstore, outlook, outlookWith]

/-- Whether the ids that two mints will give out agree under `f`. -/
def Mint.Alike (f : String → String) (m n : Mint) : Prop :=
  ∀ kind k,
    f ({ m with made := m.made + k }.fresh kind) = f ({ n with made := n.made + k }.fresh kind)

namespace Mint.Alike

variable {f : String → String} {m n : Mint}

theorem fresh (h : m.Alike f n) (kind : String) : f (m.fresh kind) = f (n.fresh kind) := h kind 0

theorem advance (h : m.Alike f n) : m.advance.Alike f n.advance := by
  intro kind k
  simpa only [Mint.advance, Nat.add_right_comm _ 1 k, Nat.add_assoc] using h kind (k + 1)

end Mint.Alike

namespace Move

/-- Whether a move does the same however far the delivery has got. A stop does not, nor does an
edit of the flow, and an answer need not if it names its question by an id. -/
def isTimeless : Move → Bool
  | act (.resolve _) _ | stop _ | setGraph _ => false
  | _ => true

def under (clock : Bool) : Move → Move
  | act a _ => act a clock
  | m => m

@[simp] theorem isOperation_under (m : Move) (clock : Bool) :
    (m.under clock).isOperation = m.isOperation := by
  cases m <;> rfl

end Move

namespace Session

variable {f : String → String}

/-- Sessions that come to the same, but for ids that `f` does not tell apart. -/
structure Alike (f : String → String) (s t : Session) : Prop where
  graph : s.graph = t.graph
  limits : s.config.limits = t.config.limits
  intent : s.config.intent = t.config.intent
  mint : s.mint.Alike f t.mint
  outlook : s.outlook.rename f = t.outlook.rename f

namespace Alike

variable {s t : Session}

theorem store (h : s.Alike f t) : s.state.store = t.state.store :=
  congrArg Outlook.store h.outlook

theorem cursor (h : s.Alike f t) : s.state.cursor = t.state.cursor :=
  congrArg Outlook.cursor h.outlook

theorem pending? (h : s.Alike f t) :
    s.state.pending?.map (Interceptor.rename f) = t.state.pending?.map (Interceptor.rename f) := by
  have hp := congrArg Outlook.pending? h.outlook
  simp only [Outlook.pending?_rename] at hp
  simpa only [Session.outlook, Conversation.pending?_outlook] using hp

end Alike

end Session

structure Plan.Alike (f : String → String) (p q : Plan) : Prop where
  session : p.session.Alike f q.session
  batch : p.batch.map (Entry.rename f) = q.batch.map (Entry.rename f)
  outcome : p.outcome = q.outcome

namespace Session

variable {f : String → String} {s t : Session}

theorem Alike.planNothing (h : s.Alike f t) : s.planNothing.Alike f t.planNothing := ⟨h, rfl, rfl⟩

theorem Alike.planWalk (h : s.Alike f t) (r : TraversalRequest) {before before' : List Entry}
    (hb : before.map (Entry.rename f) = before'.map (Entry.rename f)) :
    (s.planWalk r before).Alike f (t.planWalk r before') := by
  have hwalker : t.walker = { s.walker with interceptorId := t.mint.interceptorId } := by
    simp [walker, h.graph, h.store, h.intent]
  have hwalk : (s.walker.traverse s.config.limits r).rename f =
      (t.walker.traverse t.config.limits r).rename f := by
    rw [hwalker, ← h.limits]
    exact (Walker.rename_walk (w := s.walker) (h.mint.fresh "interceptor") ..).symm
  simp only [Traversal.rename, Traversal.mk.injEq] at hwalk
  obtain ⟨hentries, hcursor, hstop, -⟩ := hwalk
  have hbatch : (s.planWalk r before).batch.map (Entry.rename f) =
      (t.planWalk r before').batch.map (Entry.rename f) := by
    simp [Session.planWalk, hb, hentries]
  refine ⟨⟨h.graph, h.limits, h.intent, h.mint.advance, ?_⟩, hbatch, ?_⟩
  · have houtlook : ∀ (s : Session) (before : List Entry),
        (s.planWalk r before).session.outlook.rename f = { s.outlook.rename f with
          cursor := some (s.walker.traverse s.config.limits r).cursor } := fun _ _ => rfl
    rw [houtlook, houtlook, h.outlook, hcursor]
  · have hlength := congrArg List.length hbatch
    rw [List.length_map, List.length_map] at hlength
    simp only [Session.planWalk] at hlength ⊢
    rw [hlength, hstop]

theorem Alike.planResumption (h : s.Alike f t) {r r' : Resumption}
    (hr : r.rename f = r'.rename f) : (s.planResumption r).Alike f (t.planResumption r') := by
  cases r with
  | resume origin handle written =>
      cases r' with
      | resume origin' handle' written' =>
          cases hr
          exact h.planWalk _ rfl
      | _ => cases hr
  | stillMissing question written =>
      cases r' with
      | stillMissing question' written' =>
          simp only [Resumption.rename, Resumption.stillMissing.injEq] at hr
          exact ⟨h, by simp [Session.planResumption, Entry.rename, hr.1], rfl⟩
      | _ => cases hr
  | noBranch written =>
      cases r' with
      | noBranch written' => exact ⟨h, rfl, rfl⟩
      | _ => cases hr
  | stale =>
      cases r' with
      | stale => exact h.planNothing
      | _ => cases hr

theorem Alike.planAnswer (h : s.Alike f t) {i i' : Interceptor} (hi : s.state.pending? = some i)
    (hi' : t.state.pending? = some i') (value : String) :
    (s.planAnswer (.answer i value)).Alike f (t.planAnswer (.answer i' value)) := by
  have hrename : i.rename f = i'.rename f := by
    have hp := h.pending?
    rw [hi, hi'] at hp
    exact Option.some.inj hp
  have hs := s.state.outlook_resolve s.pause? hi value s.mint.interceptorId
  have ht := t.state.outlook_resolve t.pause? hi' value t.mint.interceptorId
  obtain ⟨hresumption, houtlook⟩ :=
    Outlook.rename_answer h.outlook hrename (h.mint.fresh "interceptor") value
  have hresolved : Session.Alike f
      { s with
        state := (s.state.resolve (.answer i value) s.mint.interceptorId).2
        mint := s.mint.advance }
      { t with
        state := (t.state.resolve (.answer i' value) t.mint.interceptorId).2
        mint := t.mint.advance } := by
    refine ⟨h.graph, h.limits, h.intent, h.mint.advance, ?_⟩
    exact (congrArg (Outlook.rename f) hs.2).trans
      (houtlook.trans (congrArg (Outlook.rename f) ht.2).symm)
  have hplan := hresolved.planResumption
    ((congrArg (Resumption.rename f) hs.1).trans
      (hresumption.trans (congrArg (Resumption.rename f) ht.1).symm))
  exact ⟨hplan.session, hplan.batch, hplan.outcome⟩

theorem Alike.plan (h : s.Alike f t) {a : Act} (ha : ∀ choice, a ≠ .resolve choice) :
    (s.plan a).Alike f (t.plan a) := by
  have hbubble : ∀ text, (s.bubble text).2.Alike f (t.bubble text).2 ∧
      [(s.bubble text).1].map (Entry.rename f) = [(t.bubble text).1].map (Entry.rename f) := by
    intro text
    refine ⟨⟨h.graph, h.limits, h.intent, h.mint.advance, h.outlook⟩, ?_⟩
    simp [bubble, Entry.rename, Mint.userMessage, h.mint.fresh "user"]
  cases a with
  | start =>
      simp only [Session.plan, h.graph]
      cases t.graph.start? with
      | none => exact ⟨h, rfl, rfl⟩
      | some step => exact h.planWalk _ rfl
  | send input =>
      simp only [Session.plan, h.graph, h.cursor]
      split
      · exact h.planNothing
      · cases t.state.cursor.or (t.graph.start?.map Step.id) with
        | none => exact h.planNothing
        | some origin => exact (hbubble _).1.planWalk _ (hbubble _).2
  | click origin handle label => exact (hbubble label).1.planWalk _ (hbubble label).2
  | answer value =>
      have hp := h.pending?
      simp only [Session.plan]
      cases hi : s.state.pending? with
      | none =>
          rw [hi, Option.map_none, eq_comm, Option.map_eq_none_iff] at hp
          rw [hp]
          exact h.planNothing
      | some i =>
          rw [hi, Option.map_some, eq_comm, Option.map_eq_some_iff] at hp
          obtain ⟨i', hi', -⟩ := hp
          rw [hi']
          exact h.planAnswer hi hi' value
  | resolve choice => exact absurd rfl (ha choice)

theorem Alike.dispatch (h : s.Alike f t) (hs : s.Sound) (ht : t.Sound) {batch batch' : List Entry}
    (hb : batch.map (Entry.rename f) = batch'.map (Entry.rename f)) {clock clock' : Bool}
    (hturn : clock = true ∨ s.pause? = none) (hturn' : clock' = true ∨ t.pause? = none) :
    (s.dispatch batch clock).1.Alike f (t.dispatch batch' clock').1 := by
  have houtlook : (s.dispatch batch clock).1.outlook.rename f =
      (t.dispatch batch' clock').1.outlook.rename f := by
    rw [hs.outlook_dispatch batch hturn, ht.outlook_dispatch batch' hturn', Outlook.rename_extend,
      Outlook.rename_extend, h.outlook, hb]
  obtain ⟨_, _, _, _, he⟩ := s.exists_session_dispatch batch clock
  obtain ⟨_, _, _, _, he'⟩ := t.exists_session_dispatch batch' clock'
  rw [he, he'] at houtlook ⊢
  exact ⟨h.graph, h.limits, h.intent, h.mint, houtlook⟩

theorem Sound.outlook_reset {s : Session} (h : s.Sound) :
    s.reset.session.outlook = ⟨[], .empty, .empty, none⟩ := by
  have hp : s.reset.session.pause? = none := h.pauseOf?_next
  rw [outlook, hp]
  rfl

theorem outlook_setVariable (s : Session) (name value : String) :
    (s.setVariable name value).session.outlook =
      { s.outlook with store := s.outlook.store.set (.text name value) } := rfl

/-- An operation that comes in turn keeps sessions alike and is answered the same in both. -/
theorem Alike.perform (h : s.Alike f t) (hs : s.Sound) (ht : t.Sound) {m : Move} {clock : Bool}
    (hm : m.isTimeless = true) (ho : m.isOperation = true) (hturn : s.ComesInTurn m)
    (hturn' : t.ComesInTurn (m.under clock)) :
    (s.perform m).session.Alike f (t.perform (m.under clock)).session ∧
      (s.perform m).result = (t.perform (m.under clock)).result := by
  cases m with
  | act a clock' =>
      have ha : ∀ choice, a ≠ .resolve choice := by
        rintro choice rfl
        cases hm
      have hp := h.plan ha
      simp only [Session.perform, Move.under, Response.session_map, Response.result_map,
        act_eq_carryOut]
      exact ⟨hp.session.dispatch (sound_plan a hs) (sound_plan a ht) hp.batch
        (hs.inTurn_plan hturn) (ht.inTurn_plan hturn'), congrArg Reply.turn hp.outcome⟩
  | stop now => cases hm
  | reset =>
      refine ⟨⟨h.graph, h.limits, h.intent, h.mint, ?_⟩, rfl⟩
      exact congrArg (Outlook.rename f) (hs.outlook_reset.trans ht.outlook_reset.symm)
  | setGraph graph => cases hm
  | setVariable name value =>
      refine ⟨⟨h.graph, h.limits, h.intent, h.mint, ?_⟩, rfl⟩
      have hset : ∀ o : Outlook,
          Outlook.rename f { o with store := o.store.set (.text name value) } =
            { o.rename f with store := (o.rename f).store.set (.text name value) } := fun _ => rfl
      simp only [Session.perform, Move.under, Response.session_map, outlook_setVariable]
      rw [hset, hset, h.outlook]
  | proceed run => cases ho

theorem Alike.proceed (h : s.Alike f t) (hs : s.Sound) (run : Run) :
    (s.proceed run).1.Alike f t := by
  have houtlook := hs.outlook_proceed run
  obtain ⟨_, _, he⟩ := s.exists_session_proceed run
  rw [he] at houtlook ⊢
  refine ⟨h.graph, h.limits, h.intent, h.mint, ?_⟩
  exact (congrArg (Outlook.rename f) houtlook).trans h.outlook

/-- Without pauses every act comes in turn. -/
theorem Sound.comesInTurn {s : Session} (h : s.Sound) (ht : s.config.simulates = false) (m : Move) :
    s.ComesInTurn m := by
  cases m with
  | act a clock => exact .inr (h.isActive_iff.mpr (h.pause?_eq_none ht))
  | _ => trivial

/-- Sessions stay alike if one of them has runs that go on at any moments between operations, and
the other has no pauses. -/
theorem Alike.after (h : s.Alike f t) (hs : s.Sound) (ht : t.Sound)
    (hinstant : t.config.simulates = false) (clock : Bool) (moves : List Move)
    (hm : ∀ m ∈ moves, m.isTimeless = true) (hturn : s.Throughout ComesInTurn moves) :
    (s.after moves).Alike f (t.after ((moves.filter Move.isOperation).map (Move.under clock))) ∧
      s.replies moves =
        t.replies ((moves.filter Move.isOperation).map (Move.under clock)) := by
  induction moves generalizing s t with
  | nil => exact ⟨h, rfl⟩
  | cons m rest ih =>
      have hrest : ∀ m ∈ rest, m.isTimeless = true := fun m hmem => hm m (by simp [hmem])
      have hs' := sound_perform m hs
      cases ho : m.isOperation with
      | true =>
          obtain ⟨halike, hreply⟩ := h.perform hs ht (hm m (by simp)) ho hturn.1
            (ht.comesInTurn hinstant (m.under clock))
          obtain ⟨hafter, hreplies⟩ := ih halike hs' (sound_perform _ ht)
            ((t.config_perform _).symm ▸ hinstant) hrest hturn.2
          rw [List.filter_cons_of_pos ho]
          refine ⟨hafter, ?_⟩
          simp only [List.map_cons, replies, Move.isOperation_under, ho, if_true, hreply, hreplies]
      | false =>
          obtain ⟨run, rfl⟩ : ∃ run, m = .proceed run := by
            cases m with
            | proceed run => exact ⟨run, rfl⟩
            | _ => cases ho
          obtain ⟨hafter, hreplies⟩ := ih (h.proceed hs run) hs' ht hinstant hrest hturn.2
          rw [List.filter_cons_of_neg (by simp [ho])]
          refine ⟨hafter, ?_⟩
          simp only [replies, ho]
          exact hreplies

/-- The session once its latest run has been left to go on to its end. -/
def drained (s : Session) : Session :=
  match _h : s.pause? with
  | some _ => (s.proceed s.live).1.drained
  | none => s
termination_by s.work
decreasing_by exact work_proceed_lt _h

theorem pause?_drained (s : Session) : s.drained.pause? = none := by
  fun_induction drained s with
  | case1 s p h ih => exact ih
  | case2 s h => exact h

theorem Sound.drained {s : Session} (h : s.Sound) : s.drained.Sound := by
  fun_induction Session.drained s with
  | case1 s p hp ih => exact ih (sound_proceed s.live h)
  | case2 s hp => exact h

theorem Alike.drained (h : s.Alike f t) (hs : s.Sound) : s.drained.Alike f t := by
  fun_induction Session.drained s with
  | case1 s p hp ih => exact ih (h.proceed hs s.live) (sound_proceed s.live hs)
  | case2 s hp => exact h

/-- However far a delivery with pauses has got at each operation, each is answered as if all had
been delivered at once, and what there is in the end is the same too. Only the ids that the sessions
make up may differ: `f` is any renaming under which they agree, such as one that blots them out.
Where there are pauses, acts have a clock at hand or come while nothing is delivered. -/
theorem independent_of_pace (graph : FlowGraph) (config : Config) (m n : Mint) (clock : Bool)
    (f : String → String) (hids : m.Alike f n) (moves : List Move)
    (hmoves : ∀ move ∈ moves, move.isTimeless = true)
    (hturn : (ofGraph graph { config with simulates := true } m).Throughout ComesInTurn moves) :
    let paced := ofGraph graph { config with simulates := true } m
    let instant := ofGraph graph { config with simulates := false } n
    let operations := (moves.filter Move.isOperation).map (Move.under clock)
    let s := (paced.after moves).drained
    let t := instant.after operations
    s.state.isActive = false ∧
      s.state.history.map (Entry.rename f) = t.state.history.map (Entry.rename f) ∧
      s.state.store = t.state.store ∧
      s.state.visible = t.state.visible ∧
      s.state.cursor = t.state.cursor ∧
      s.state.pending?.map (Interceptor.rename f) = t.state.pending?.map (Interceptor.rename f) ∧
      paced.replies moves = instant.replies operations := by
  intro paced instant operations s t
  have hpaced : paced.Sound := sound_ofGraph ..
  have hinstant : instant.Sound := sound_ofGraph ..
  have hstart : paced.Alike f instant := ⟨rfl, rfl, rfl, hids, rfl⟩
  obtain ⟨hafter, hreplies⟩ := hstart.after hpaced hinstant rfl clock moves hmoves hturn
  have halike : s.Alike f t := hafter.drained (hpaced.after moves)
  have hs : s.Sound := (hpaced.after moves).drained
  have ht : t.Sound := hinstant.after operations
  have hps : s.pause? = none := pause?_drained _
  have hpt : t.pause? = none := by
    have hconfig : t.config = instant.config := instant.config_after operations
    exact ht.pause?_eq_none (by simp [hconfig, instant, ofGraph])
  have houtlook := halike.outlook
  rw [hs.outlook_of_pause?_eq_none hps, ht.outlook_of_pause?_eq_none hpt] at houtlook
  simp only [Outlook.rename, Outlook.mk.injEq] at houtlook
  obtain ⟨hhistory, hstore, hvisible, hcursor⟩ := houtlook
  have hactive := hs.atPause.active
  rw [hps] at hactive
  exact ⟨hactive, hhistory, hstore, hvisible, hcursor, halike.pending?, hreplies⟩

/-- An answer that comes while its question is still in the queue leads on all the same. -/
theorem drained_welcome :
    let moves : List Move :=
      [.act .start true, .proceed ⟨1⟩, .act (.answer "good") true, .proceed ⟨1⟩,
        .setVariable "name" "Ada"]
    let config := { Config.standard "s" with simulates := true }
    let paced := ofGraph welcome config (.ofNonce "n")
    (paced.after moves).drained.state.history.map (Entry.rename fun _ => "") =
      welcomeFlow.steps.tail.map Entry.step := by
  intro moves config paced
  have h := independent_of_pace welcome (.standard "s") (.ofNonce "n") (.ofNonce "m") false
    (fun _ => "") (fun _ _ => rfl) moves (by decide)
    (throughout_comesInTurn_of_clock _ (by simp [moves]))
  exact h.2.1.trans rfl

end Session

end Dialogue
