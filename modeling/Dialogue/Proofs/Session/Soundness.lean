import Dialogue.Proofs.Session.AtPause

/-! Runs and the conversation that they deliver. A conversation is active exactly while its latest
run has not ended, and nothing is on its way unless it is active, so no queue is ever stranded. -/

namespace Dialogue

namespace Session

/-- Where the latest run waits, unless it has ended. -/
def pause? (s : Session) : Option Pause := s.pauseOf? s.live

/-- The turn that the latest run has taken out of the queue and not committed yet. -/
def held (s : Session) : List Entry := s.pause?.elim [] Pause.held

theorem pauseOf?_eq_none_iff {s : Session} {run : Run} :
    s.pauseOf? run = none ↔ ∀ d ∈ s.runs, d.run ≠ run := by
  simp [pauseOf?]

theorem find?_moveRun (runs : List DeliveryRun) (run : Run) (pause : Option Pause)
    (hd : (runs.map DeliveryRun.run).Nodup) (hr : run ∈ runs.map DeliveryRun.run) :
    ((moveRun run pause runs).find? fun d => d.run = run).map DeliveryRun.pause = pause := by
  induction runs with
  | nil => simp at hr
  | cons head rest ih =>
      simp only [List.map_cons, List.nodup_cons] at hd
      by_cases h : head.run = run
      · rw [h] at hd
        simp only [moveRun, h, if_true]
        cases pause with
        | none =>
            simp only [Option.toList_none, List.map_nil, List.nil_append, Option.map_eq_none_iff,
              List.find?_eq_none, decide_eq_true_eq]
            intro d hm hrun
            exact hd.1 (hrun ▸ List.mem_map_of_mem hm)
        | some p => simp
      · simp only [moveRun, h, if_false, List.find?_cons, decide_false]
        apply ih hd.2
        simpa [h, Ne.symm h, eq_comm] using hr

theorem find?_moveRun_of_ne (runs : List DeliveryRun) {run other : Run} (pause : Option Pause)
    (h : other ≠ run) :
    (moveRun run pause runs).find? (fun d => d.run = other) =
      runs.find? fun d => d.run = other := by
  induction runs with
  | nil => rfl
  | cons head rest ih =>
      by_cases hh : head.run = run
      · cases pause <;> simp [moveRun, hh, h.symm]
      · simp [moveRun, hh, List.find?_cons, ih]

theorem map_run_moveRun_sublist (runs : List DeliveryRun) (run : Run) (pause : Option Pause) :
    ((moveRun run pause runs).map DeliveryRun.run).Sublist (runs.map DeliveryRun.run) := by
  induction runs with
  | nil => exact List.Sublist.refl _
  | cons head rest ih =>
      by_cases h : head.run = run
      · cases pause <;> simp [moveRun, h]
      · simpa [moveRun, h] using ih

theorem moveRun_none_of_pauseOf? {s : Session} {run : Run} (h : s.pauseOf? run = none) :
    moveRun run none s.runs = s.runs := by
  rw [pauseOf?_eq_none_iff] at h
  generalize s.runs = runs at h
  induction runs with
  | nil => rfl
  | cons head rest ih =>
      have hrest : moveRun run none rest = rest := ih fun d hd => h d (by simp [hd])
      simp [moveRun, h head, hrest]

/-! ### What a run does when it goes on -/

theorem proceed_of_ne {s : Session} {run : Run} (h : run ≠ s.live) :
    s.proceed run = ({ s with runs := moveRun run none s.runs }, []) := by
  unfold proceed
  cases hp : s.pauseOf? run with
  | none => simp [moveRun_none_of_pauseOf? hp]
  | some p => simp [h]

/-- A run has ended before, is the latest and goes on from its pause, or has been superseded. -/
theorem proceed_cases (s : Session) (run : Run) :
    s.proceed run = (s, []) ∨
      (∃ p, run = s.live ∧ s.pause? = some p ∧ s.proceed run =
        ({ s with
            state := (s.state.resumeFrom s.live p).state
            runs := moveRun s.live (s.state.resumeFrom s.live p).pause s.runs },
          (s.state.resumeFrom s.live p).events)) ∨
      (run ≠ s.live ∧ s.proceed run = ({ s with runs := moveRun run none s.runs }, [])) := by
  by_cases hr : run = s.live
  · subst hr
    cases hp : s.pauseOf? s.live with
    | none => exact .inl (by simp [proceed, hp])
    | some p => exact .inr (.inl ⟨p, rfl, hp, by simp [proceed, hp]⟩)
  · exact .inr (.inr ⟨hr, proceed_of_ne hr⟩)

theorem pause?_moveRun_of_ne {s : Session} {run : Run} (h : run ≠ s.live) :
    pause? { s with runs := moveRun run none s.runs } = s.pause? := by
  simp only [pause?, pauseOf?, find?_moveRun_of_ne s.runs none (Ne.symm h)]

/-- What holds of every session at every moment at which no operation is under way. -/
structure Sound (s : Session) : Prop where
  numbers : ∀ d ∈ s.runs, d.run.number ≤ s.live.number
  distinct : (s.runs.map DeliveryRun.run).Nodup
  atPause : s.state.AtPause s.pause?
  /-- Runs are only started where turns are delivered with pauses. -/
  timed : s.runs ≠ [] → s.config.simulates = true

theorem sound_ofGraph (graph : FlowGraph) (config : Config) (mint : Mint) :
    (ofGraph graph config mint).Sound := by
  refine ⟨by simp [ofGraph], by simp [ofGraph], ?_, by simp [ofGraph]⟩
  exact ⟨rfl, fun _ => rfl, rfl, rfl, fun _ => rfl⟩

theorem Sound.pauseOf?_moveRun {s : Session} (h : s.Sound) {run : Run} {p : Pause}
    (hp : s.pauseOf? run = some p) (state : Conversation) (pause : Option Pause) (other : Run) :
    pauseOf? { s with state, runs := moveRun run pause s.runs } other =
      if other = run then pause else s.pauseOf? other := by
  split
  · next heq =>
    subst heq
    obtain ⟨d, hd, -⟩ := Option.map_eq_some_iff.mp hp
    have hrun : d.run = other := by simpa using List.find?_some hd
    exact find?_moveRun s.runs other pause h.distinct
      (hrun ▸ List.mem_map_of_mem (List.mem_of_find?_eq_some hd))
  · next hne => simp only [pauseOf?, find?_moveRun_of_ne s.runs pause hne]

theorem Sound.pause?_moveRun {s : Session} (h : s.Sound) {p : Pause} (hp : s.pause? = some p)
    {state : Conversation} {pause : Option Pause} :
    pause? { s with state, runs := moveRun s.live pause s.runs } = pause :=
  (h.pauseOf?_moveRun hp state pause s.live).trans (if_pos rfl)

theorem Sound.frame {s s' : Session} (h : s.Sound) (runs : s'.runs = s.runs)
    (live : s'.live = s.live) (config : s'.config = s.config)
    (state : s.state.AtPause s.pause? → s'.state.AtPause s.pause?) : s'.Sound := by
  have hp : s'.pause? = s.pause? := by simp only [pause?, pauseOf?, runs, live]
  refine ⟨?_, ?_, ?_, ?_⟩
  · rw [runs, live]; exact h.numbers
  · rw [runs]; exact h.distinct
  · rw [hp]; exact state h.atPause
  · rw [runs, config]; exact h.timed

theorem Sound.pauseOf?_next {s : Session} (h : s.Sound) : s.pauseOf? s.live.next = none := by
  rw [pauseOf?_eq_none_iff]
  intro d hd he
  have hn := h.numbers d hd
  rw [he] at hn
  simp only [Run.next] at hn
  omega

/-- Giving up the latest run leaves none that could change anything. -/
theorem Sound.giveUp {s s' : Session} (h : s.Sound) (runs : s'.runs = s.runs)
    (live : s'.live = s.live.next) (config : s'.config = s.config)
    (state : s'.state.AtPause none) : s'.Sound := by
  have hp : s'.pause? = none := by
    simpa only [pause?, pauseOf?, runs, live] using h.pauseOf?_next
  refine ⟨?_, ?_, ?_, ?_⟩
  · intro d hd
    rw [runs] at hd
    have hn := h.numbers d hd
    rw [live, Run.next]
    exact Nat.le_succ_of_le hn
  · rw [runs]; exact h.distinct
  · rw [hp]; exact state
  · rw [runs, config]; exact h.timed

theorem Sound.pause?_of_active {s : Session} (h : s.Sound) (ha : s.state.isActive = true) :
    ∃ p, s.pause? = some p :=
  Option.isSome_iff_exists.mp (h.atPause.active.symm.trans ha)

theorem Sound.pause?_of_not_active {s : Session} (h : s.Sound) (ha : s.state.isActive = false) :
    s.pause? = none := by
  simpa [ha] using h.atPause.active.symm

theorem Sound.isActive_iff {s : Session} (h : s.Sound) :
    s.state.isActive = false ↔ s.pause? = none := by
  rw [h.atPause.active]
  cases s.pause? <;> simp

theorem Sound.pause?_eq_none {s : Session} (h : s.Sound) (ht : s.config.simulates = false) :
    s.pause? = none := by
  rw [pause?, pauseOf?_eq_none_iff]
  intro d hd
  have htrue := h.timed (List.ne_nil_of_mem hd)
  rw [ht] at htrue
  cases htrue

/-- What is committed at once is so where nothing is on its way, if it comes in turn. -/
theorem Sound.pause?_of_inTurn {s : Session} (h : s.Sound) {clock : Bool}
    (hturn : clock = true ∨ s.pause? = none) (ht : ¬ (s.config.simulates = true ∧ clock = true)) :
    s.pause? = none := by
  rcases hturn with rfl | hnone
  · exact h.pause?_eq_none (by simpa using ht)
  · exact hnone

theorem sound_applyNow {s : Session} (batch : List Entry) (h : s.Sound) :
    (s.applyNow batch).1.Sound :=
  h.frame rfl rfl rfl (Conversation.atPause_apply batch)

theorem Sound.pause?_deliver {s : Session} (h : s.Sound) (batch : List Entry) :
    (s.deliver batch).pause? = some (s.pause?.getD .unstarted) := by
  cases ha : s.state.isActive with
  | true =>
      obtain ⟨p, hp⟩ := h.pause?_of_active ha
      rw [deliver_of_active batch ha]
      change s.pause? = _
      rw [hp]; rfl
  | false =>
      have hnext : s.runs.find? (fun d => d.run = s.live.next) = none := by
        simpa [pauseOf?] using h.pauseOf?_next
      rw [deliver_of_not_active batch ha, h.pause?_of_not_active ha]
      simp [pause?, pauseOf?, hnext]

theorem sound_deliver {s : Session} (batch : List Entry) (h : s.Sound)
    (ht : s.config.simulates = true) : (s.deliver batch).Sound := by
  have hpause := h.pause?_deliver batch
  cases ha : s.state.isActive with
  | true =>
      rw [deliver_of_active batch ha]
      refine h.frame rfl rfl rfl fun hc => hc.frame rfl (fun hp => ?_) rfl rfl (.inl rfl)
      obtain ⟨p, hsome⟩ := h.pause?_of_active ha
      rw [hp] at hsome
      cases hsome
  | false =>
      have hp := h.pause?_of_not_active ha
      have hc := h.atPause
      rw [hp] at hc hpause
      rw [deliver_of_not_active batch ha] at hpause ⊢
      refine ⟨?_, ?_, ?_, fun _ => ht⟩
      · intro d hd
        rcases List.mem_append.mp hd with hd | hd
        · exact Nat.le_succ_of_le (h.numbers d hd)
        · obtain rfl := List.mem_singleton.mp hd
          exact Nat.le_refl _
      · rw [List.map_append, List.nodup_append]
        refine ⟨h.distinct, by simp, ?_⟩
        intro a ha b hb hab
        obtain ⟨d, hd, rfl⟩ := List.mem_map.mp ha
        have hn := h.numbers d hd
        rw [hab, List.mem_singleton.mp hb] at hn
        exact absurd hn (Nat.not_succ_le_self _)
      · rw [hpause]
        exact ⟨rfl, nofun, hc.thinking, hc.streaming, nofun⟩

theorem sound_hand {s : Session} (batch : List Entry) (clock : Bool) (h : s.Sound) :
    (s.hand batch clock).1.Sound := by
  rcases s.hand_cases batch clock with ⟨-, he⟩ | ⟨ht, he⟩
  · rw [he]
    exact sound_applyNow batch h
  · rw [he]
    exact sound_deliver batch h ht.1

theorem pause?_supersede (s : Session) : s.supersede.1.pause? = s.pause? := by
  unfold supersede
  split <;> rfl

theorem sound_supersede {s : Session} (h : s.Sound) : s.supersede.1.Sound := by
  unfold supersede
  split
  · next i state hp =>
    obtain ⟨j, -, ht⟩ := Option.bind_eq_some_iff.mp hp
    exact h.frame rfl rfl rfl fun hc => hc.take? ht
  · exact h

theorem sound_dispatch {s : Session} (batch : List Entry) (clock : Bool) (h : s.Sound) :
    (s.dispatch batch clock).1.Sound := by
  unfold dispatch
  split
  · exact h
  · split
    · exact sound_hand batch clock (sound_supersede h)
    · exact sound_hand batch clock h

theorem pause?_plan (s : Session) (a : Act) : (s.plan a).session.pause? = s.pause? := by
  obtain ⟨_, _, hplan⟩ := s.exists_session_plan a
  rw [hplan]
  rfl

/-- An act that comes in turn dispatches its batch where that can wait, or nothing is on its way. -/
theorem Sound.inTurn_plan {s : Session} (h : s.Sound) {a : Act} {clock : Bool}
    (hturn : s.ComesInTurn (.act a clock)) : clock = true ∨ (s.plan a).session.pause? = none := by
  rw [pause?_plan]
  exact hturn.imp_right h.isActive_iff.mp

theorem sound_planWalk {s : Session} (r : TraversalRequest) (before : List Entry) (h : s.Sound) :
    (s.planWalk r before).session.Sound :=
  h.frame rfl rfl rfl fun hc => hc.frame rfl (fun _ hq => hq) rfl rfl (.inl rfl)

theorem sound_planResumption {s : Session} (r : Resumption) (h : s.Sound) :
    (s.planResumption r).session.Sound := by
  cases r with
  | resume origin handle written => exact sound_planWalk _ _ h
  | stillMissing question written => exact h
  | noBranch written => exact h
  | stale => exact h

theorem sound_planAnswer {s : Session} (choice : Choice) (h : s.Sound) :
    (s.planAnswer choice).session.Sound := by
  apply sound_planResumption
  exact h.frame rfl rfl rfl (Conversation.AtPause.resolve choice s.mint.interceptorId)

theorem sound_plan {s : Session} (a : Act) (h : s.Sound) : (s.plan a).session.Sound := by
  rcases s.plan_cases a with ⟨_, -, hp⟩ | ⟨r, -, hp⟩ | ⟨text, r, -, hp⟩ | ⟨choice, -, hp⟩
  · rw [hp]
    exact h
  · rw [hp]
    exact sound_planWalk r [] h
  · rw [hp]
    exact sound_planWalk r _ (h.frame rfl rfl rfl id)
  · rw [hp]
    exact sound_planAnswer choice h

theorem sound_proceed {s : Session} (run : Run) (h : s.Sound) : (s.proceed run).1.Sound := by
  have hsub := fun pause => map_run_moveRun_sublist s.runs run pause
  have hnumbers : ∀ pause, ∀ d ∈ moveRun run pause s.runs, d.run.number ≤ s.live.number := by
    intro pause d hd
    obtain ⟨d', hd', he⟩ := List.mem_map.mp ((hsub pause).subset (List.mem_map_of_mem hd))
    rw [← he]
    exact h.numbers d' hd'
  have htimed : ∀ pause, moveRun run pause s.runs ≠ [] → s.config.simulates = true := by
    intro pause hne
    apply h.timed
    rintro hnil
    rw [hnil] at hne
    exact hne rfl
  rcases s.proceed_cases run with he | ⟨p, rfl, hp, he⟩ | ⟨hr, he⟩
  · rw [he]
    exact h
  · have hc := h.atPause
    rw [hp] at hc
    rw [he]
    refine ⟨hnumbers _, h.distinct.sublist (hsub _), ?_, htimed _⟩
    rw [h.pause?_moveRun hp]
    exact Conversation.atPause_resumeFrom s.live hc
  · rw [he]
    refine ⟨hnumbers _, h.distinct.sublist (hsub _), ?_, htimed _⟩
    rw [pause?_moveRun_of_ne hr]
    exact h.atPause

theorem sound_perform {s : Session} (m : Move) (h : s.Sound) : (s.perform m).session.Sound := by
  cases m with
  | act a clock =>
      simp only [perform, Response.session_map, act_eq_carryOut]
      exact sound_dispatch _ clock (sound_plan a h)
  | stop now =>
      simp only [perform, Response.session_map]
      rcases s.stop_cases now with ⟨hd, he⟩ | ⟨-, he⟩
      · rw [h.atPause.isDelivering_eq] at hd
        have hc := h.atPause
        rw [h.pause?_of_not_active hd] at hc
        rw [he]
        exact h.giveUp rfl rfl rfl hc
      · rw [he]
        exact h.giveUp rfl rfl rfl ⟨rfl, fun _ => rfl, rfl, rfl, fun _ => rfl⟩
  | reset => exact h.giveUp rfl rfl rfl ⟨rfl, fun _ => rfl, rfl, rfl, fun _ => rfl⟩
  | setGraph graph =>
      refine h.frame rfl rfl rfl fun hc => hc.frame rfl (fun _ hq => ?_) rfl rfl ?_
      · simp [perform, setGraph, Conversation.resync, hq]
      · simp only [perform, setGraph, Response.session_map, Conversation.resync]
        split
        · exact .inl rfl
        · exact .inr rfl
  | setVariable name value =>
      exact h.frame rfl rfl rfl fun hc => hc.frame rfl (fun _ hq => hq) rfl rfl (.inl rfl)
  | proceed run => exact sound_proceed run h

theorem Sound.after {s : Session} (h : s.Sound) (moves : List Move) : (s.after moves).Sound :=
  after_induction moves h fun _ m _ => sound_perform m

theorem Sound.length_filter_live {s : Session} (h : s.Sound) :
    (s.runs.filter fun d => d.run = s.live).length = s.pause?.toList.length := by
  have hd := h.distinct
  simp only [pause?, pauseOf?]
  generalize s.runs = runs at hd
  induction runs with
  | nil => rfl
  | cons head rest ih =>
      simp only [List.map_cons, List.nodup_cons] at hd
      by_cases hr : head.run = s.live
      · have hrest : rest.filter (fun d => d.run = s.live) = [] := by
          rw [List.filter_eq_nil_iff]
          intro d hm he
          rw [decide_eq_true_eq] at he
          exact hd.1 (hr ▸ he ▸ List.mem_map_of_mem hm)
        simp [hr, hrest]
      · simpa [hr] using ih hd.2

/-- A conversation is active exactly while one run bears the latest number, and no queue, typing or
text on its way is left without a run that goes on with it. -/
theorem active_iff_one_live_run (graph : FlowGraph) (config : Config) (mint : Mint)
    (moves : List Move) :
    let s := (ofGraph graph config mint).after moves
    (s.state.isActive = true ↔ (s.runs.filter fun d => d.run = s.live).length = 1) ∧
      (s.state.queue ≠ [] ∨ s.state.isThinking = true ∨ s.state.streaming.isSome = true →
        s.state.isActive = true) ∧
      s.state.isDelivering = s.state.isActive := by
  intro s
  have h : s.Sound := (sound_ofGraph graph config mint).after moves
  have hdelivering := h.atPause.isDelivering_eq
  refine ⟨?_, ?_, hdelivering⟩
  · rw [h.length_filter_live, h.atPause.active]
    cases s.pause? <;> simp
  · intro hw
    rw [← hdelivering, Conversation.isDelivering]
    rcases hw with hw | hw | hw <;> simp [hw]

end Session

end Dialogue
