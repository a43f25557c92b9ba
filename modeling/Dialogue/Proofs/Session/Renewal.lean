import Dialogue.Proofs.Conversation.Mint
import Dialogue.Proofs.Conversation.Rename
import Dialogue.Proofs.Session.Mirror

/-! A reset makes a session new. What it does from then on is what a new session over the same flow
does, but for made-up ids, which differ by a renaming that is one to one, and for the numbers of
runs, which go on from that of the reset. Runs from before the reset go on to no effect. -/

namespace Dialogue

def Act.rename (f : String → String) : Act → Act
  | .resolve choice => .resolve (choice.rename f)
  | a => a

def Move.rename (f : String → String) (n : Nat) : Move → Move
  | .act a clock => .act (a.rename f) clock
  | .proceed run => .proceed (run.later n)
  | m => m

namespace Session

/-- Whether a session is another one with its ids renamed and its runs so many numbers later. It may
have runs besides, of numbers that the other has not. -/
structure Renamed (f : String → String) (n : Nat) (t s : Session) : Prop where
  config : s.config = t.config
  graph : s.graph = t.graph
  state : s.state = t.state.rename f
  live : s.live = t.live.later n
  mint : t.mint.Renames f s.mint
  pauses : ∀ run, s.pauseOf? (run.later n) = t.pauseOf? run

end Session

structure Plan.Renamed (f : String → String) (n : Nat) (q p : Plan) : Prop where
  session : q.session.Renamed f n p.session
  batch : p.batch = q.batch.map (Entry.rename f)
  notice : p.notice = q.notice
  outcome : p.outcome = q.outcome
  bound : p.bound = q.bound

structure Response.Renamed {α : Type} (f : String → String) (n : Nat) (q p : Response α) :
    Prop where
  session : q.session.Renamed f n p.session
  events : p.events = q.events.map (Event.rename f n)
  result : p.result = q.result
  bound : p.bound = q.bound

theorem Response.Renamed.map {α β : Type} {f : String → String} {n : Nat} {q p : Response α}
    (h : q.Renamed f n p) (g : α → β) : (q.map g).Renamed f n (p.map g) :=
  ⟨h.session, h.events, congrArg g h.result, h.bound⟩

namespace Session

theorem pauseOf?_append_run (s : Session) (state : Conversation) (live : Run) (awaited : Option Run)
    (started : DeliveryRun) (run : Run) :
    pauseOf? { s with state, live, awaited, runs := s.runs ++ [started] } run =
      (s.pauseOf? run).or (if started.run = run then some started.pause else none) := by
  simp only [pauseOf?, List.find?_append]
  cases s.runs.find? (fun d => d.run = run) with
  | some d => rfl
  | none => by_cases h : started.run = run <;> simp [h]

namespace Renamed

variable {f : String → String} {n : Nat} {t s : Session}

theorem assign (h : t.Renamed f n s) {c : Conversation} {m m' : Mint} (hmint : m.Renames f m') :
    { t with state := c, mint := m }.Renamed f n { s with state := c.rename f, mint := m' } :=
  ⟨h.config, h.graph, rfl, h.live, hmint, h.pauses⟩

/-! ### What an act prepares -/

theorem planNothing (h : t.Renamed f n s) : t.planNothing.Renamed f n s.planNothing :=
  ⟨h, rfl, rfl, rfl, rfl⟩

theorem planWalk (h : t.Renamed f n s) (r : TraversalRequest) (before : List Entry) :
    (t.planWalk r before).Renamed f n (s.planWalk r (before.map (Entry.rename f))) := by
  have hwalker : s.walker = { t.walker with interceptorId := f t.walker.interceptorId } := by
    have hid : f t.mint.interceptorId = s.mint.interceptorId := h.mint.fresh .interceptor
    simp only [walker, h.config, h.graph, h.state, ← hid]
    rfl
  have hwalk : s.walker.traverse s.config.limits r =
      (t.walker.traverse t.config.limits r).rename f := by
    rw [hwalker, h.config]
    exact Walker.walk_rename f t.walker _ _ _ _ _
  refine ⟨?_, ?_, ?_, ?_, rfl⟩
  · simp only [Session.planWalk, hwalk, h.state]
    exact h.assign h.mint.advance
  · simp [Session.planWalk, hwalk, Traversal.rename]
  · simp only [Session.planWalk, hwalk]
    rfl
  · simp [Session.planWalk, hwalk, Traversal.rename]

theorem planResumption (h : t.Renamed f n s) (r : Resumption) :
    (t.planResumption r).Renamed f n (s.planResumption (r.rename f)) := by
  cases r with
  | resume origin handle written => exact h.planWalk _ []
  | stillMissing question written => exact ⟨h, rfl, rfl, rfl, rfl⟩
  | noBranch written => exact ⟨h, rfl, rfl, rfl, rfl⟩
  | stale => exact h.planNothing

theorem planAnswer (hf : f.Injective) (h : t.Renamed f n s) (choice : Choice) :
    (t.planAnswer choice).Renamed f n (s.planAnswer (choice.rename f)) := by
  have hresolved : s.state.resolve (choice.rename f) s.mint.interceptorId =
      ((t.state.resolve choice t.mint.interceptorId).1.rename f,
        (t.state.resolve choice t.mint.interceptorId).2.rename f) := by
    have hid : f t.mint.interceptorId = s.mint.interceptorId := h.mint.fresh .interceptor
    rw [h.state, ← hid, Conversation.resolve_rename t.state hf]
  have hplan := (h.assign (c := (t.state.resolve choice t.mint.interceptorId).2)
    h.mint.advance).planResumption (t.state.resolve choice t.mint.interceptorId).1
  simp only [Session.planAnswer, hresolved, Resumption.written?_rename]
  exact ⟨hplan.session, hplan.batch, congrArg (announceBound _ ++ ·) hplan.notice,
    hplan.outcome, rfl⟩

theorem bubble (h : t.Renamed f n s) (text : String) :
    (t.bubble text).2.Renamed f n (s.bubble text).2 ∧
      (s.bubble text).1 = (t.bubble text).1.rename f := by
  refine ⟨⟨h.config, h.graph, h.state, h.live, h.mint.advance, h.pauses⟩, ?_⟩
  have hid : f (t.mint.fresh "user") = s.mint.fresh "user" := h.mint.fresh .user
  simp [Session.bubble, Mint.userMessage, Entry.rename, hid]

theorem plan (hf : f.Injective) (h : t.Renamed f n s) (a : Act) :
    (t.plan a).Renamed f n (s.plan (a.rename f)) := by
  have hsaid : ∀ text r, ((t.bubble text).2.planWalk r [(t.bubble text).1]).Renamed f n
      ((s.bubble text).2.planWalk r [(s.bubble text).1]) := by
    intro text r
    rw [(h.bubble text).2]
    exact (h.bubble text).1.planWalk r [(t.bubble text).1]
  cases a with
  | start =>
      simp only [Session.plan, Act.rename, h.graph]
      cases t.graph.start? with
      | none => exact ⟨h, rfl, rfl, rfl, rfl⟩
      | some step => exact h.planWalk _ []
  | send input =>
      have hcursor : s.state.cursor = t.state.cursor := by
        rw [h.state]
        rfl
      simp only [Session.plan, Act.rename, h.graph, hcursor]
      split
      · exact h.planNothing
      · cases t.state.cursor.or (t.graph.start?.map Step.id) with
        | none => exact h.planNothing
        | some origin => exact hsaid _ _
  | click origin handle label => exact hsaid label _
  | answer value =>
      have hpending := Conversation.pending?_rename f t.state
      rw [← h.state] at hpending
      simp only [Session.plan, Act.rename, hpending]
      cases t.state.pending? with
      | none => exact h.planNothing
      | some i => exact h.planAnswer hf (.answer i value)
  | resolve choice => exact h.planAnswer hf choice

/-! ### What a dispatch does -/

theorem supersede (hf : f.Injective) (h : t.Renamed f n s) :
    t.supersede.1.Renamed f n s.supersede.1 ∧
      s.supersede.2 = t.supersede.2.map (Event.rename f n) := by
  have htake := Conversation.takePending?_rename t.state hf
  rw [← h.state] at htake
  simp only [Session.supersede, htake]
  cases t.state.takePending? with
  | none => exact ⟨h, rfl⟩
  | some taken => exact ⟨h.assign h.mint, rfl⟩

theorem applyNow (h : t.Renamed f n s) (batch : List Entry) :
    (t.applyNow batch).1.Renamed f n (s.applyNow (batch.map (Entry.rename f))).1 ∧
      (s.applyNow (batch.map (Entry.rename f))).2 =
        (t.applyNow batch).2.map (Event.rename f n) := by
  refine ⟨?_, ?_⟩
  · simp only [Session.applyNow, h.state, Conversation.apply_rename]
    exact h.assign h.mint
  · simp only [Session.applyNow, h.live, List.flatMap_map, List.map_flatMap,
      Entry.announcedShown_rename]

theorem deliver (h : t.Renamed f n s) (batch : List Entry) :
    (t.deliver batch).Renamed f n (s.deliver (batch.map (Entry.rename f))) := by
  have hactive : s.state.isActive = t.state.isActive := by
    rw [h.state]
    rfl
  have henqueue :
      s.state.enqueue (batch.map (Entry.rename f)) = (t.state.enqueue batch).rename f := by
    rw [h.state, Conversation.enqueue_rename]
  cases ha : t.state.isActive with
  | true =>
      rw [deliver_of_active batch ha, deliver_of_active _ (hactive.trans ha), henqueue]
      exact h.assign h.mint
  | false =>
      rw [deliver_of_not_active batch ha, deliver_of_not_active _ (hactive.trans ha), henqueue]
      refine ⟨h.config, h.graph, rfl, congrArg Run.next h.live, h.mint, fun run => ?_⟩
      have hlive : s.live.next = t.live.next.later n := congrArg Run.next h.live
      simp only [pauseOf?_append_run, h.pauses, hlive, Run.later_inj]

theorem hand (h : t.Renamed f n s) (batch : List Entry) (clock : Bool) :
    (t.hand batch clock).1.Renamed f n (s.hand (batch.map (Entry.rename f)) clock).1 ∧
      (s.hand (batch.map (Entry.rename f)) clock).2 =
        (t.hand batch clock).2.map (Event.rename f n) := by
  have hnow := h.applyNow batch
  simp only [Session.hand, h.config]
  cases t.config.simulates with
  | false => exact hnow
  | true =>
      cases clock with
      | false => exact ⟨hnow.1, congrArg (List.cons _) hnow.2⟩
      | true => exact ⟨h.deliver batch, rfl⟩

theorem dispatch (hf : f.Injective) (h : t.Renamed f n s) (batch : List Entry) (clock : Bool) :
    (t.dispatch batch clock).1.Renamed f n (s.dispatch (batch.map (Entry.rename f)) clock).1 ∧
      (s.dispatch (batch.map (Entry.rename f)) clock).2 =
        (t.dispatch batch clock).2.map (Event.rename f n) := by
  have hasks : ((batch.map (Entry.rename f)).any fun e => e.interceptor?.isSome) =
      batch.any fun e => e.interceptor?.isSome := by
    simp [List.any_map, Function.comp_def]
  simp only [Session.dispatch, List.isEmpty_map, hasks]
  split
  · exact ⟨h, rfl⟩
  · split
    · obtain ⟨hfirst, hsaid⟩ := h.supersede hf
      obtain ⟨hrest, htold⟩ := hfirst.hand batch clock
      refine ⟨hrest, ?_⟩
      rw [List.map_append]
      exact congrArg₂ (· ++ ·) hsaid htold
    · exact h.hand batch clock

theorem act (hf : f.Injective) (h : t.Renamed f n s) (a : Act) (clock : Bool) :
    (t.act clock a).Renamed f n (s.act clock (a.rename f)) := by
  have hplan := h.plan hf a
  obtain ⟨hsession, hevents⟩ := hplan.session.dispatch hf (t.plan a).batch clock
  rw [← hplan.batch] at hsession hevents
  rw [act_eq_carryOut, act_eq_carryOut]
  refine ⟨hsession, ?_, hplan.outcome, hplan.bound⟩
  have hnotice := Event.map_rename_of_run? (f := f) (n := n) (t.run?_of_mem_notice a)
  simp only [Plan.carryOut, hevents, hplan.notice, List.map_append, hnotice]

/-! ### Moves -/

theorem stop (h : t.Renamed f n s) (now : Timestamp) : (t.stop now).Renamed f n (s.stop now) := by
  have hlive : s.live.next = t.live.next.later n := congrArg Run.next h.live
  have hmarker : s.mint.feedback Conversation.stoppedText now =
      { t.mint.feedback Conversation.stoppedText now with
        id := f (t.mint.feedback Conversation.stoppedText now).id } := by
    have hid : f (t.mint.fresh "feedback") = s.mint.fresh "feedback" := h.mint.fresh .feedback
    simp only [Mint.feedback, hid]
  simp only [Session.stop, h.state, hmarker, Conversation.stop?_rename, hlive]
  cases t.state.stop? (t.mint.feedback Conversation.stoppedText now) with
  | none => exact ⟨⟨h.config, h.graph, rfl, rfl, h.mint, h.pauses⟩, rfl, rfl, rfl⟩
  | some stopped =>
      exact ⟨⟨h.config, h.graph, rfl, rfl, h.mint.advance, h.pauses⟩, rfl, rfl, rfl⟩

theorem reset (h : t.Renamed f n s) : t.reset.Renamed f n s.reset := by
  have hlive : s.live.next = t.live.next.later n := congrArg Run.next h.live
  refine ⟨⟨h.config, h.graph, rfl, hlive, h.mint, h.pauses⟩, ?_, rfl, rfl⟩
  simp only [Session.reset, hlive]
  rfl

theorem setGraph (h : t.Renamed f n s) (graph : FlowGraph) :
    (t.setGraph graph).Renamed f n (s.setGraph graph) := by
  refine ⟨⟨h.config, rfl, ?_, h.live, h.mint, h.pauses⟩, rfl, ?_, rfl⟩
  · simp only [Session.setGraph, h.state, Conversation.resync_rename]
  · simp only [Session.setGraph, h.state, Conversation.resyncReport_rename]

theorem setVariable (h : t.Renamed f n s) (name value : String) :
    (t.setVariable name value).Renamed f n (s.setVariable name value) := by
  refine ⟨?_, rfl, rfl, rfl⟩
  simp only [Session.setVariable, h.state]
  exact h.assign h.mint

theorem proceed (h : t.Renamed f n s) (ht : t.Sound) (hs : s.Sound) (run : Run) :
    (t.proceed run).1.Renamed f n (s.proceed (run.later n)).1 ∧
      (s.proceed (run.later n)).2 = (t.proceed run).2.map (Event.rename f n) := by
  have hpause := h.pauses run
  cases hp : t.pauseOf? run with
  | none =>
      rw [hp] at hpause
      simp only [Session.proceed, hp, hpause]
      exact ⟨h, rfl⟩
  | some p =>
      rw [hp] at hpause
      have hmoved : ∀ (state state' : Conversation) pause other,
          pauseOf? { s with state, runs := moveRun (run.later n) pause s.runs } (other.later n) =
            pauseOf? { t with state := state', runs := moveRun run pause t.runs } other := by
        intro state state' pause other
        rw [hs.pauseOf?_moveRun hpause, ht.pauseOf?_moveRun hp, h.pauses other]
        simp only [Run.later_inj]
      have hlive : run.later n = s.live ↔ run = t.live := by rw [h.live, Run.later_inj]
      simp only [Session.proceed, hp, hpause, hlive]
      split
      · simp only [h.state, Conversation.resumeFrom_rename]
        exact ⟨⟨h.config, h.graph, rfl, h.live, h.mint, hmoved _ _ _⟩, rfl⟩
      · exact ⟨⟨h.config, h.graph, h.state, h.live, h.mint, hmoved _ _ _⟩, rfl⟩

/-- A move does the same, renamed. -/
theorem perform (hf : f.Injective) (h : t.Renamed f n s) (ht : t.Sound) (hs : s.Sound) (m : Move) :
    (t.perform m).Renamed f n (s.perform (m.rename f n)) := by
  cases m with
  | act a clock => exact (h.act hf a clock).map Reply.turn
  | stop now => exact (h.stop now).map Reply.stopped
  | reset => exact h.reset.map fun _ => Reply.done
  | setGraph graph => exact (h.setGraph graph).map Reply.resynced
  | setVariable name value => exact (h.setVariable name value).map fun _ => Reply.done
  | proceed run =>
      obtain ⟨hsession, hevents⟩ := h.proceed ht hs run
      exact ⟨hsession, hevents, rfl, rfl⟩

/-- A run with a number from before goes on to no effect. -/
theorem proceed_before (h : t.Renamed f n s) {run : Run} (hrun : run.number < n) :
    t.Renamed f n (s.proceed run).1 ∧ (s.proceed run).2 = [] := by
  have hother : ∀ r : Run, r.later n ≠ run := by
    rintro r rfl
    simp only [Run.later] at hrun
    omega
  have hlive : run ≠ s.live := by
    rw [h.live]
    exact (hother t.live).symm
  rw [proceed_of_ne hlive]
  refine ⟨⟨h.config, h.graph, h.state, h.live, h.mint, fun r => ?_⟩, rfl⟩
  have hpause := h.pauses r
  simp only [pauseOf?] at hpause ⊢
  rw [find?_moveRun_of_ne s.runs none (hother r), hpause]

end Renamed

end Session

/-- What a move is in a session whose ids are renamed to those of this one, and whose first run
bears the number `n` here. There is no such move for a run from before. -/
def Move.since? (f : Equiv.Perm String) (n : Nat) : Move → Option Move
  | .act a clock => some (.act (a.rename f.symm) clock)
  | .proceed run => if run.number < n then none else some (.proceed ⟨run.number - n⟩)
  | m => some m

theorem Move.rename_of_since? {f : Equiv.Perm String} {n : Nat} {m m' : Move}
    (h : m.since? f n = some m') : m'.rename f n = m := by
  cases m with
  | act a clock =>
      cases h
      cases a with
      | resolve choice => simp [rename, Act.rename, Choice.rename]
      | _ => rfl
  | proceed run =>
      simp only [since?] at h
      split at h
      · cases h
      · cases h
        simp only [rename, Run.later]
        congr
        omega
  | _ =>
      cases h
      rfl

theorem Move.exists_of_since?_eq_none {f : Equiv.Perm String} {n : Nat} {m : Move}
    (h : m.since? f n = none) : ∃ run, m = .proceed run ∧ run.number < n := by
  cases m with
  | proceed run => exact ⟨run, rfl, by simpa [since?] using h⟩
  | _ => cases h

namespace Session

variable {f : Equiv.Perm String} {n : Nat} {t s : Session}

/-- Sessions that are the same, renamed, stay so however they go on. -/
theorem Renamed.after (h : t.Renamed f n s) (ht : t.Sound) (hs : s.Sound) (moves : List Move) :
    (t.after (moves.filterMap (Move.since? f n))).Renamed f n (s.after moves) ∧
      s.replies moves = t.replies (moves.filterMap (Move.since? f n)) ∧
      s.published moves =
        (t.published (moves.filterMap (Move.since? f n))).map (Event.rename f n) := by
  -- On the moves: one that has a counterpart is made in both, and another one changes nothing.
  induction moves generalizing t s with
  | nil => exact ⟨h, rfl, rfl⟩
  | cons m rest ih =>
      cases hm : m.since? f n with
      | none =>
          obtain ⟨run, rfl, hrun⟩ := Move.exists_of_since?_eq_none hm
          obtain ⟨hsession, hevents⟩ := h.proceed_before hrun
          obtain ⟨hafter, hreplies, hpublished⟩ := ih hsession ht (sound_proceed run hs)
          rw [List.filterMap_cons_none hm]
          refine ⟨hafter, hreplies, ?_⟩
          simp only [Session.published, Session.perform, hevents, List.nil_append]
          exact hpublished
      | some m' =>
          obtain rfl := Move.rename_of_since? hm
          have hperform := h.perform f.injective ht hs m'
          obtain ⟨hafter, hreplies, hpublished⟩ :=
            ih hperform.session (sound_perform m' ht) (sound_perform _ hs)
          have hoperation : (m'.rename f n).isOperation = m'.isOperation := by cases m' <;> rfl
          rw [List.filterMap_cons_some hm]
          refine ⟨hafter, ?_, ?_⟩
          · simp only [replies, hoperation, hperform.result, hreplies]
          · simp only [Session.published, hperform.events, hpublished, List.map_append]

/-- After a reset there is nothing but the flow, the settings and the number of the latest run. -/
theorem Sound.renamed_reset (hs : s.Sound) {m : Mint} (hmint : m.Renames f s.mint) :
    (ofGraph s.graph s.config m).Renamed f s.live.next.number s.reset.session := by
  refine ⟨rfl, rfl, rfl, rfl, hmint, fun run => ?_⟩
  -- A run that still pauses has a number up to that of the live run, and so one from before.
  refine pauseOf?_eq_none_iff.mpr fun d hd hrun => ?_
  have hnumber := hs.numbers d hd
  rw [hrun] at hnumber
  simp only [Run.later, Run.next] at hnumber
  omega

theorem supply_perform (s : Session) (m : Move) :
    (s.perform m).session.mint.supply = s.mint.supply := by
  cases m with
  | act a clock =>
      obtain ⟨_, _, hplan⟩ := s.exists_session_plan a
      obtain ⟨_, _, _, _, hdispatch⟩ :=
        (s.plan a).session.exists_session_dispatch (s.plan a).batch clock
      simp only [perform, Response.session_map, act_eq_carryOut, Plan.carryOut]
      rw [hdispatch, hplan]
  | stop now =>
      simp only [perform, Response.session_map]
      rcases s.stop_cases now with ⟨-, h⟩ | ⟨-, h⟩
      · rw [h]
      · rw [h]
        rfl
  | proceed run =>
      obtain ⟨_, _, hproceed⟩ := s.exists_session_proceed run
      simp only [perform]
      rw [hproceed]
  | _ => rfl

/-- From a reset on, a session does what a new one does over the flow that it has then: its
conversation is the same, but for made-up ids, and so are its answers and the events that it
publishes, but for these ids and the numbers of its runs. This is so whatever went before, and
whenever a run from before the reset goes on. Of the ids it is asked that they are made from
supplies without repetition, and a stop is to find the same time in both sessions. -/
theorem reset_renews (graph : FlowGraph) (config : Config) (mint other : Mint)
    (hmint : mint.supply.Injective) (hother : other.supply.Injective) (earlier : List Move) :
    let old := (ofGraph graph config mint).after earlier
    let s := (old.perform .reset).session
    let fresh := ofGraph old.graph config other
    ∃ f : Equiv.Perm String, ∀ later : List Move,
      let moves := later.filterMap (Move.since? f s.live.number)
      (s.after later).state = (fresh.after moves).state.rename f ∧
        (s.after later).live = (fresh.after moves).live.later s.live.number ∧
        s.replies later = fresh.replies moves ∧
        s.published later = (fresh.published moves).map (Event.rename f s.live.number) := by
  intro old s fresh
  have hold : old.Sound := (sound_ofGraph graph config mint).after earlier
  have hsupply : old.mint.supply.Injective := by
    have hsame : old.mint.supply = mint.supply :=
      after_induction (P := fun t => t.mint.supply = mint.supply) earlier rfl
        fun t m _ h => (t.supply_perform m).trans h
    rwa [hsame]
  obtain ⟨f, hf⟩ := Mint.exists_renames hother hsupply
  have hrenamed : fresh.Renamed f s.live.number s := by
    have h := hold.renamed_reset hf
    rw [config_after] at h
    exact h
  refine ⟨f, fun later => ?_⟩
  obtain ⟨hafter, hreplies, hpublished⟩ :=
    hrenamed.after (sound_ofGraph ..) (sound_perform .reset hold) later
  exact ⟨hafter.state, hafter.live, hreplies, hpublished⟩

/-- A welcome that is forgotten in the midst of its greeting begins anew as a new one does. -/
theorem reset_renews_welcome :
    let old := (ofGraph welcome (.standard "s") (.ofNonce "n")).after
      [.act .start true, .proceed ⟨1⟩, .proceed ⟨1⟩]
    let s := (old.perform .reset).session
    let fresh := ofGraph welcome (.standard "s") (.ofNonce "m")
    ∃ f : Equiv.Perm String,
      (s.after [.act .start true, .proceed ⟨1⟩, .proceed ⟨3⟩]).state =
        (fresh.after [.act .start true, .proceed ⟨1⟩]).state.rename f := by
  intro old s fresh
  obtain ⟨f, hf⟩ := reset_renews welcome (.standard "s") (.ofNonce "n") (.ofNonce "m")
    (Mint.supply_ofNonce_injective "n") (Mint.supply_ofNonce_injective "m")
    [.act .start true, .proceed ⟨1⟩, .proceed ⟨1⟩]
  exact ⟨f, (hf [.act .start true, .proceed ⟨1⟩, .proceed ⟨3⟩]).1⟩

end Session

end Dialogue
