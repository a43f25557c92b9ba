import Dialogue.Proofs.Session.Script
import Dialogue.Proofs.Session.Status
import Dialogue.Proofs.Session.Superseded

/-! A run plays the script of its turn. From one pause to the next it announces what the script has
for the moment at which the pause is over, and nothing that comes between two pauses changes what is
left of the script, unless it gives up the run; but a question that is committed at once, in the
midst of the turn, may have the run announce a phase once more. -/

namespace Dialogue

namespace Pause

/-- Whether no prompt is being written character by character. -/
def isFit : Pause → Bool
  | beforeCharacter d .. => !d.isPrompt
  | _ => true

end Pause

namespace Conversation

def shownText (c : Conversation) : String := (c.streaming.map Streaming.text).getD ""

end Conversation

variable (t : Timing) (delay : Nat) (run : Run)

/-- Whether what a run announces at one moment is what a script begins with. Either the rest of the
script is left for the next pause, with less to do than `work`, or all of the script is there. -/
def Segment.Plays (script : List (Nat × Event)) (now work : Nat) (seg : Segment) : Prop :=
  (∃ p, seg.pause = some p ∧ p.isFit = true ∧ p.work < work ∧
      script = seg.events.map (now, ·) ++
        Script.ofPause t delay run seg.state.shownText now p) ∨
    script <+: seg.events.map (now, ·)

theorem Segment.plays_nil (seg : Segment) (now work : Nat) :
    seg.Plays t delay run [] now work := .inr List.nil_prefix

theorem Segment.Plays.after {script : List (Nat × Event)} {now work work' : Nat} {seg : Segment}
    (h : seg.Plays t delay run script now work) (hwork : work ≤ work') (events : List Event) :
    (seg.after events).Plays t delay run (events.map (now, ·) ++ script) now work' := by
  rcases h with ⟨p, hpause, hfit, hless, hscript⟩ | hall
  · refine .inl ⟨p, hpause, hfit, Nat.lt_of_lt_of_le hless hwork, ?_⟩
    rw [hscript, Segment.after, List.map_append, List.append_assoc]
  · refine .inr ?_
    rw [Segment.after, List.map_append]
    exact (List.prefix_append_right_inj _).mpr hall

namespace Conversation

variable {c : Conversation} (now : Nat)

/-- Whether it appears as a whole or is written, the rest of its turn is left behind a component
that is begun. -/
theorem exists_pause_begin (c : Conversation) (d : Component) (rest : List Component) :
    ∃ p, (begin run c d rest).pause = some p ∧ p.isFit = true ∧
      p.work < d.pauses + Component.pausesOf rest + 1 ∧
      Script.ofPause t delay run (begin run c d rest).state.shownText now p =
        d.showing t delay run now ++ Script.behind t delay run d (now + d.cost t delay) rest := by
  unfold begin
  split
  · next ch chars htext =>
    have hne : d.characters ≠ [] := by simp [htext]
    have hprompt : d.isPrompt = false :=
      Bool.eq_false_iff.mpr fun h => hne (Component.characters_of_isPrompt h)
    refine ⟨_, rfl, by simp [Pause.isFit, hprompt], ?_, ?_⟩
    · simp only [Pause.work, Component.pauses, htext, List.length_cons]
      omega
    · have hshown : (c.beginStream d.id).shownText = "" := rfl
      rw [Component.showing_eq_writing t delay run hne, hshown, Script.ofPause, htext,
        Component.cost, if_neg hne, htext, List.length_cons]
  · next htext =>
    refine ⟨_, rfl, rfl, ?_, ?_⟩
    · simp only [Pause.work, Component.pauses, htext, List.length_nil]
      omega
    · rw [Component.showing_of_characters t delay run htext, Script.ofPause, Component.cost,
        if_pos htext]
      rfl

theorem events_begin (hphase : c.phase ≠ .instantReveal) (d : Component) (rest : List Component) :
    (begin run c d rest).events = [.phaseChanged run d.phase] := by
  unfold begin
  split
  · next ch chars htext => simp [Component.phase, htext]
  · next htext => simp [enter, Component.phase, htext, hphase]

theorem events_begin_of_isPrompt (hphase : c.phase = .instantReveal) {d : Component}
    (hprompt : d.isPrompt = true) (rest : List Component) : (begin run c d rest).events = [] := by
  have htext := Component.characters_of_isPrompt hprompt
  unfold begin
  split
  · next ch chars h =>
    rw [htext] at h
    cases h
  · simp [enter, hphase]

theorem plays_begin (hphase : c.phase ≠ .instantReveal) (d : Component) (rest : List Component) :
    (begin run c d rest).Plays t delay run (Script.beginning t delay run now d rest) now
      (d.pauses + Component.pausesOf rest + 1) := by
  obtain ⟨p, hpause, hfit, hwork, hscript⟩ := exists_pause_begin t delay run now c d rest
  refine .inl ⟨p, hpause, hfit, hwork, ?_⟩
  rw [events_begin run hphase, hscript]
  rfl

theorem plays_proceed (hphase : c.phase ≠ .pausedBetween) (previous : Component)
    (hprompt : previous.isPrompt = true → c.phase = .instantReveal) (rest : List Component) :
    (proceed run c previous rest).Plays t delay run (Script.behind t delay run previous now rest)
      now (Component.pausesOf rest + 1) := by
  cases rest with
  | nil => exact Segment.plays_nil t delay run _ now _
  | cons d rest =>
      have hpauses : Component.pausesOf (d :: rest) = d.pauses + 1 + Component.pausesOf rest := by
        simp [Component.pausesOf]
      rw [proceed, Script.behind]
      split
      · next hboth =>
        obtain ⟨hfirst, hsecond⟩ := Bool.and_eq_true_iff.mp hboth
        obtain ⟨p, hpause, hfit, hwork, hscript⟩ := exists_pause_begin t delay run now c d rest
        refine .inl ⟨p, hpause, hfit, by omega, ?_⟩
        rw [events_begin_of_isPrompt run (hprompt hfirst) hsecond, hscript]
        rfl
      · refine .inl ⟨.beforeComponent d rest, rfl, rfl, ?_, ?_⟩
        · simp only [Pause.work]
          omega
        · simp [enter, hphase, Script.ofPause, Script.beginning]

theorem plays_openTurn (hphase : c.phase = .thinking) (id : StepId) (components : List Component) :
    (openTurn run c id components).Plays t delay run
      (Script.committed t delay run now id components) now
      (Component.pausesOf components + 1) := by
  let opened := { c with isThinking := false }.commit (.step (.turn id components))
  unfold openTurn
  cases components with
  | nil =>
      have hended := (drain run opened c.queue).plays_nil t delay run now 1
      exact hended.after t delay run (Nat.le_refl 1) (Entry.announced run (.step (.turn id [])))
  | cons d rest =>
      have hopened : opened.phase ≠ .instantReveal := by
        intro he
        simp [opened, commit, Entry.interceptor?, hphase] at he
      have hpauses : Component.pausesOf (d :: rest) = d.pauses + 1 + Component.pausesOf rest := by
        simp [Component.pausesOf]
      have hbegun := plays_begin t delay run now hopened d rest
      exact hbegun.after t delay run (by omega)
        (Entry.announced run (.step (.turn id (d :: rest))))

/-- After a character comes the next one, or what is behind the text. -/
theorem plays_write (hphase : c.phase = .streaming) (hwriting : c.streaming.isSome = true)
    {d : Component} (hprompt : d.isPrompt = false) (ch : Char) (chars : List Char)
    (rest : List Component) :
    (write run c d ch chars rest).Plays t delay run
      ((now, .streamProgress run d.id (c.shownText.push ch)) ::
        (d.writing delay run (c.shownText.push ch) now chars ++
          Script.behind t delay run d (now + delay * chars.length) rest)) now
      (chars.length + Component.pausesOf rest + 1) := by
  obtain ⟨w, hw⟩ := Option.isSome_iff_exists.mp hwriting
  have hshown : c.shownText = w.text := by simp [shownText, hw]
  have hprogress : ((c.push ch).streaming.toList.map fun w =>
      Event.streamProgress run d.id w.text) =
        [.streamProgress run d.id (c.shownText.push ch)] := by
    simp [push, hw, hshown]
  unfold write
  cases chars with
  | nil =>
      have hbehind := plays_proceed t delay run (c := (c.push ch).finishStream) now
        (fun he => by simp [push, finishStream, hphase] at he) d
        (fun hp => by simp [hprompt] at hp) rest
      simp only [hprogress]
      exact hbehind.after t delay run (by simp) _
  | cons ch' chars =>
      refine .inl ⟨_, rfl, by simp [Pause.isFit, hprompt], by simp [Pause.work], ?_⟩
      have hpushed : (c.push ch).shownText = c.shownText.push ch := by
        simp [shownText, push, hw]
      simp only [hprogress, Script.ofPause, hpushed, List.length_cons]
      rfl

/-- From one pause to the next a run plays what is left of its script. -/
theorem plays_resumeFrom {p : Pause} (h : c.AtPause (some p)) (hphase : c.InPhase (some p))
    (hfit : p.isFit = true) (hdelay : t.fixedCharacter? = some delay) (draw time : Nat) :
    (resumeFrom run c p).Plays t delay run (Script.ofPause t delay run c.shownText time p)
      (time + t.duration draw p) p.work := by
  cases p with
  | unstarted => exact Segment.plays_nil t delay run _ _ _
  | beforeTurn id components =>
      exact plays_openTurn t delay run _ (hphase.phase_eq rfl) id components
  | beforeComponent d rest =>
      have hphase : c.phase = .pausedBetween := hphase.phase_eq rfl
      exact plays_begin t delay run _ (by simp [hphase]) d rest
  | beforeReveal d rest =>
      have hphase : c.phase = .instantReveal := hphase.phase_eq rfl
      have hbehind := plays_proceed t delay run (c := c.reveal d.id) (time + d.wholeCost t)
        (fun he => by simp [reveal, hphase] at he) d (fun _ => hphase) rest
      exact hbehind.after t delay run (Nat.le_refl _) [.componentRevealed run d.id]
  | beforeCharacter d ch chars rest =>
      have hnow : t.duration draw (.beforeCharacter d ch chars rest) = delay :=
        Timing.character_eq_of_fixedCharacter? hdelay draw
      have hrest : time + delay * (chars.length + 1) = time + delay + delay * chars.length := by
        rw [Nat.mul_succ]
        omega
      have hwritten := plays_write t delay run (time + delay) (hphase.phase_eq rfl)
        h.streaming (by simpa [Pause.isFit] using hfit) ch chars rest
      rw [hnow, Script.ofPause, hrest]
      exact hwritten

end Conversation

/-! ### What a run does but for the phases -/

def Conversation.unphased (c : Conversation) : Conversation := { c with phase := .idle }

/-- A segment of which neither the phases nor their announcements count. -/
def Segment.unphased (seg : Segment) : Segment :=
  ⟨seg.state.unphased, seg.events.filter fun e => !e.isPhase, seg.pause⟩

theorem Segment.unphased_after (seg : Segment) (events : List Event) :
    (seg.after events).unphased = seg.unphased.after (events.filter fun e => !e.isPhase) := by
  simp [after, unphased]

namespace Conversation

theorem unphased_commit (c : Conversation) (e : Entry) :
    (c.commit e).unphased = (c.unphased.commit e).unphased := rfl

theorem unphased_enter (c : Conversation) (phase : Phase) (p : Option Pause) :
    Segment.unphased ⟨(enter run c phase).1, (enter run c phase).2, p⟩ =
      Segment.unphased ⟨(enter run c.unphased phase).1, (enter run c.unphased phase).2, p⟩ := by
  have hnone : ∀ c : Conversation, (enter run c phase).2.filter (fun e => !e.isPhase) = [] := by
    intro c
    unfold enter
    split <;> rfl
  simp only [Segment.unphased, hnone]
  rfl

theorem unphased_drain (c : Conversation) (queue : List Entry) :
    (drain run c queue).unphased = (drain run c.unphased queue).unphased := by
  induction queue generalizing c with
  | nil => rfl
  | cons e rest ih =>
      have hcommit : ((drain run (c.commit e) rest).after (e.announced run)).unphased =
          ((drain run (c.unphased.commit e) rest).after (e.announced run)).unphased := by
        rw [Segment.unphased_after, Segment.unphased_after, ih, unphased_commit, ← ih]
      cases e with
      | step s =>
          cases s with
          | turn id components =>
              exact unphased_enter run { c with queue := rest } .thinking _
          | _ => exact hcommit
      | _ => exact hcommit

theorem unphased_begin (c : Conversation) (d : Component) (rest : List Component) :
    (begin run c d rest).unphased = (begin run c.unphased d rest).unphased := by
  unfold begin
  split
  · rfl
  · exact unphased_enter run c .instantReveal _

theorem unphased_proceed (c : Conversation) (previous : Component) (rest : List Component) :
    (proceed run c previous rest).unphased = (proceed run c.unphased previous rest).unphased := by
  cases rest with
  | nil => exact unphased_drain run c c.queue
  | cons d rest =>
      simp only [proceed]
      split
      · exact unphased_begin run c d rest
      · exact unphased_enter run c .pausedBetween _

/-- The phase decides nothing of what a run does, but which phases it announces. -/
theorem unphased_resumeFrom (c : Conversation) (p : Pause) :
    (resumeFrom run c p).unphased = (resumeFrom run c.unphased p).unphased := by
  cases p with
  | unstarted => exact unphased_drain run c c.queue
  | beforeTurn id components =>
      let opened := { c with isThinking := false }.commit (.step (.turn id components))
      simp only [resumeFrom, openTurn]
      rw [Segment.unphased_after, Segment.unphased_after]
      refine congrArg (Segment.after _) ?_
      cases components with
      | nil => exact unphased_drain run opened opened.queue
      | cons d rest => exact unphased_begin run opened d rest
  | beforeComponent d rest => exact unphased_begin run c d rest
  | beforeReveal d rest =>
      simp only [resumeFrom, showWhole]
      rw [Segment.unphased_after, Segment.unphased_after]
      exact congrArg (Segment.after _) (unphased_proceed run (c.reveal d.id) d rest)
  | beforeCharacter d ch chars rest =>
      cases chars with
      | nil =>
          simp only [resumeFrom, write]
          rw [Segment.unphased_after, Segment.unphased_after]
          exact congrArg (Segment.after _) (unphased_proceed run (c.push ch).finishStream d rest)
      | cons ch' chars => rfl

end Conversation

/-- Whether what a run announces at one moment is what a script begins with, as told with its phases
or without. -/
def Segment.PlaysTold (phases : Bool) (script : List (Nat × Event)) (now work : Nat)
    (seg : Segment) : Prop :=
  (∃ p, seg.pause = some p ∧ p.isFit = true ∧ p.work < work ∧
      Script.told phases script = Script.told phases (seg.events.map (now, ·)) ++
        Script.told phases (Script.ofPause t delay run seg.state.shownText now p)) ∨
    Script.told phases script <+: Script.told phases (seg.events.map (now, ·))

theorem Segment.Plays.told {script : List (Nat × Event)} {now work : Nat} {seg : Segment}
    (h : seg.Plays t delay run script now work) (phases : Bool) :
    seg.PlaysTold t delay run phases script now work := by
  rcases h with ⟨p, hpause, hfit, hless, rfl⟩ | hall
  · exact .inl ⟨p, hpause, hfit, hless, Script.told_append ..⟩
  · exact .inr (hall.filter _)

/-- Without phases it is all the same in which phase the run goes on. -/
theorem Segment.PlaysTold.congr {script : List (Nat × Event)} {now work : Nat}
    {seg seg' : Segment} (h : seg.PlaysTold t delay run false script now work)
    (he : seg.unphased = seg'.unphased) : seg'.PlaysTold t delay run false script now work := by
  simp only [Segment.unphased, Segment.mk.injEq] at he
  obtain ⟨hstate, hevents, hpause⟩ := he
  have htext : seg.state.shownText = seg'.state.shownText :=
    show seg.state.unphased.shownText = seg'.state.unphased.shownText from congrArg _ hstate
  have htold : ∀ seg : Segment, Script.told false (seg.events.map (now, ·)) =
      (seg.events.filter fun e => !e.isPhase).map (now, ·) := fun seg => by
    rw [Script.told, List.filter_map]
    rfl
  unfold Segment.PlaysTold at h ⊢
  rwa [htold, hevents, ← htold, hpause, htext] at h

/-- From one pause to the next a run plays what is left of its script, and where the phase is that
of the pause it announces the phases of the script as well. -/
theorem Conversation.playsTold_resumeFrom (phases : Bool) {c : Conversation} {p : Pause}
    (h : c.AtPause (some p)) (hphase : phases = true → c.InPhase (some p)) (hfit : p.isFit = true)
    (hdelay : t.fixedCharacter? = some delay) (draw time : Nat) :
    (resumeFrom run c p).PlaysTold t delay run phases
      (Script.ofPause t delay run c.shownText time p) (time + t.duration draw p) p.work := by
  cases phases with
  | true =>
      have hplays := plays_resumeFrom t delay run h (hphase rfl) hfit hdelay draw time
      exact hplays.told _ _ _ true
  | false =>
      let own := { c with phase := p.phase?.getD .idle }
      have hown : own.AtPause (some p) := ⟨h.active, nofun, h.thinking, h.streaming, nofun⟩
      have hadmits : own.InPhase (some p) := by
        cases p <;> rfl
      have hplays := plays_resumeFrom t delay run hown hadmits hfit hdelay draw time
      refine (hplays.told _ _ _ false).congr t delay run ?_
      rw [unphased_resumeFrom, unphased_resumeFrom run c]
      rfl

namespace Move

def isBy (run : Run) : Move → Bool
  | proceed other => other = run
  | _ => false

end Move

namespace Session

/-- What a run announces along a course, each event with the time that the run has waited by then.
The pauses before characters go by numbers drawn, one for each move. -/
def played (run : Run) (draws : Nat → Nat) (s : Session) (time : Nat) :
    List Move → List (Nat × Event)
  | [] => []
  | m :: rest =>
    if m.isBy run then
      let now := time + (s.pauseOf? run).elim 0 (s.config.timing.duration (draws rest.length))
      (s.perform m).events.map (now, ·) ++ (s.perform m).session.played run draws now rest
    else (s.perform m).session.played run draws time rest

variable {s : Session}

/-- A run announces nothing once another has taken its place. -/
theorem played_of_lt {run : Run} (h : run.number < s.live.number) (draws : Nat → Nat) (time : Nat)
    (moves : List Move) : s.played run draws time moves = [] := by
  induction moves generalizing s time with
  | nil => rfl
  | cons m rest ih =>
      have hlater := ih (Nat.lt_of_lt_of_le h (s.number_live_le_perform m))
      rw [played]
      split
      · next hby =>
        obtain rfl : m = .proceed run := by
          cases m with
          | proceed other => rw [of_decide_eq_true hby]
          | _ => cases hby
        have hne : run ≠ s.live := by
          rintro rfl
          exact Nat.lt_irrefl _ h
        have hsilent : (s.perform (.proceed run)).events = [] :=
          congrArg Prod.snd (proceed_of_ne hne)
        simp only [hsilent, hlater, List.map_nil, List.append_nil]
      · exact hlater time

/-- What comes between two pauses of the latest run gives the run up, or leaves it at its pause with
the text that it has shown. -/
theorem Sound.perform_between (hs : s.Sound) {p : Pause} (hp : s.pause? = some p) {m : Move}
    (hm : m.isBy s.live = false) :
    s.live.number < (s.perform m).session.live.number ∨
      ((s.perform m).session.live = s.live ∧ (s.perform m).session.pause? = some p ∧
        (s.perform m).session.state.shownText = s.state.shownText) := by
  cases m with
  | act a clock =>
      let I : Conversation → Option Pause → Prop := fun c q =>
        q = some p ∧ c.streaming = s.state.streaming
      have hshift : ∀ {c q c' q'}, I c q → Conversation.Shift true (fun _ => True) c q c' q' →
          I c' q' := by
        rintro c q c' q' ⟨rfl, hc⟩ hs
        cases hs with
        | take id i c' htake =>
            rcases Conversation.take?_eq_some htake with ⟨-, rfl⟩ | ⟨-, rfl⟩ <;> exact ⟨rfl, hc⟩
        | assign => exact ⟨rfl, hc⟩
        | commitShown => exact ⟨rfl, hc⟩
        | enqueue => exact ⟨rfl, hc⟩
      have hplan : I (s.plan a).session.state (s.plan a).session.pause? :=
        plan_induction hshift a ⟨hp, rfl⟩
      obtain ⟨hpause, hstreaming⟩ : I ((s.plan a).session.dispatch (s.plan a).batch clock).1.state
          ((s.plan a).session.dispatch (s.plan a).batch clock).1.pause? :=
        (sound_plan a hs).dispatch_induction hshift (fun _ _ => trivial) (.inl rfl) hplan
      obtain ⟨state, mint, hsession⟩ := s.exists_session_plan a
      have hplanned : (s.plan a).session.live = s.live := by rw [hsession]
      simp only [perform, Response.session_map, act_eq_carryOut, Plan.carryOut]
      obtain ⟨state, h | h⟩ := (s.plan a).session.session_dispatch_cases (s.plan a).batch clock
      · refine .inr ⟨?_, hpause, by rw [Conversation.shownText, hstreaming]; rfl⟩
        rw [h, ← hplanned]
      · refine .inl ?_
        rw [h, ← hplanned]
        exact Nat.lt_succ_self _
  | stop now =>
      refine .inl ?_
      simp only [perform, Response.session_map]
      rcases s.stop_cases now with ⟨-, h⟩ | ⟨-, h⟩ <;> rw [h] <;> exact Nat.lt_succ_self _
  | reset => exact .inl (Nat.lt_succ_self _)
  | setGraph graph => exact .inr ⟨rfl, hp, rfl⟩
  | setVariable name value => exact .inr ⟨rfl, hp, rfl⟩
  | proceed run =>
      have hne : run ≠ s.live := of_decide_eq_false hm
      have hended := proceed_of_ne hne
      simp only [perform]
      rw [hended]
      exact .inr ⟨rfl, (pause?_moveRun_of_ne hne).trans hp, rfl⟩

theorem Sound.perform_proceed_live (hs : s.Sound) {p : Pause} (hp : s.pause? = some p) :
    (s.perform (.proceed s.live)).session.state = (s.state.resumeFrom s.live p).state ∧
      (s.perform (.proceed s.live)).session.pause? = (s.state.resumeFrom s.live p).pause ∧
      (s.perform (.proceed s.live)).session.live = s.live ∧
      (s.perform (.proceed s.live)).events = (s.state.resumeFrom s.live p).events := by
  have hwait : s.pauseOf? s.live = some p := hp
  have he : s.proceed s.live = ({ s with
      state := (s.state.resumeFrom s.live p).state
      runs := moveRun s.live (s.state.resumeFrom s.live p).pause s.runs },
    (s.state.resumeFrom s.live p).events) := by
    simp [proceed, hwait]
  simp only [perform]
  rw [he]
  exact ⟨rfl, hs.pause?_moveRun hp, rfl, rfl⟩

/-- The latest run plays what is left of its script, or else a beginning of it: then it is given up,
or there are pauses that are not over. Of phases this says something only while acts come in turn.
-/
theorem Sound.plays (hs : s.Sound) {p : Pause} (hp : s.pause? = some p) (hfit : p.isFit = true)
    {delay : Nat} (hdelay : s.config.timing.fixedCharacter? = some delay) (draws : Nat → Nat)
    (phases : Bool) (time : Nat) (moves : List Move)
    (hphase : phases = true → s.state.InPhase s.pause? ∧ s.Throughout ComesInTurn moves) :
    let script := Script.ofPause s.config.timing delay s.live s.state.shownText time p
    let played := s.played s.live draws time moves
    Script.told phases script <+: Script.told phases played ∨
      (Script.told phases played <+: Script.told phases script ∧
        ((s.after moves).live ≠ s.live ∨ moves.countP (Move.isBy s.live) < p.work)) := by
  induction moves generalizing s p time with
  | nil => exact .inr ⟨List.nil_prefix, .inr p.work_pos⟩
  | cons m rest ih =>
      intro script played
      have hs' := sound_perform m hs
      have hconfig := s.config_perform m
      have hphase' : phases = true → (s.perform m).session.state.InPhase
          (s.perform m).session.pause? ∧ (s.perform m).session.Throughout ComesInTurn rest := by
        intro htrue
        obtain ⟨hin, hturn⟩ := hphase htrue
        exact ⟨hs.inPhase_perform hturn.1 hin, hturn.2⟩
      cases hm : m.isBy s.live with
      | false =>
          have hplayed : played = (s.perform m).session.played s.live draws time rest := by
            simp only [played, Session.played, hm, Bool.false_eq_true, if_false]
          rw [hplayed, after_cons, List.countP_cons_of_neg (by simp [hm])]
          rcases hs.perform_between hp hm with hlater | ⟨hlive, hpause, htext⟩
          · rw [played_of_lt hlater]
            refine .inr ⟨List.nil_prefix, .inl fun he => ?_⟩
            have hle := number_live_le_after (s.perform m).session rest
            rw [he] at hle
            exact Nat.lt_irrefl _ (Nat.lt_of_lt_of_le hlater hle)
          · have hrest := ih hs' hpause hfit (hconfig ▸ hdelay) time hphase'
            simp only [hlive, htext, hconfig] at hrest
            exact hrest
      | true =>
          obtain rfl : m = .proceed s.live := by
            cases m with
            | proceed other => rw [of_decide_eq_true hm]
            | _ => cases hm
          obtain ⟨hstate, hnext, hlive, hevents⟩ := hs.perform_proceed_live hp
          have hpause := hs.atPause
          rw [hp] at hpause
          have hplays := Conversation.playsTold_resumeFrom s.config.timing delay s.live phases
            hpause (fun htrue => hp ▸ (hphase htrue).1) hfit hdelay (draws rest.length) time
          have hwait : s.pauseOf? s.live = some p := hp
          have hplayed : played =
              (s.state.resumeFrom s.live p).events.map
                (time + s.config.timing.duration (draws rest.length) p, ·) ++
              (s.perform (.proceed s.live)).session.played s.live draws
                (time + s.config.timing.duration (draws rest.length) p) rest := by
            simp only [played, Session.played, hm, if_true, hevents, hwait, Option.elim]
          rw [hplayed, Script.told_append, after_cons, List.countP_cons_of_pos hm]
          rcases hplays with ⟨p', hpause', hfit', hless, hscript⟩ | hall
          · have hrest := ih hs' (hnext.trans hpause') hfit' (hconfig ▸ hdelay)
              (time + s.config.timing.duration (draws rest.length) p) hphase'
            simp only [hlive, hconfig, hstate] at hrest
            rw [show Script.told phases script = _ from hscript]
            rcases hrest with hrest | ⟨hrest, hwhy⟩
            · exact .inl ((List.prefix_append_right_inj _).mpr hrest)
            · refine .inr ⟨(List.prefix_append_right_inj _).mpr hrest, ?_⟩
              exact hwhy.imp_right fun hfew => by omega
          · exact .inl (hall.trans (List.prefix_append _ _))

/-- What a run announces of a turn, from when it begins to wait before it, is the script of the turn
or a beginning of it, with these times, whatever happens meanwhile. All of the script is there once
the run has gone on often enough, unless it is given up. The script commits the turn after the pause
before it and shows each component once, in their order: it begins a component after the components
and pauses in front of it, has each character of its text after one pause more, and then reveals
it. The phases are announced as the script has them too, if acts come in turn. -/
theorem turn_plays_script (graph : FlowGraph) (config : Config) (mint : Mint) (delay : Nat)
    (hdelay : config.timing.fixedCharacter? = some delay) (draws : Nat → Nat)
    (earlier moves : List Move) (id : StepId) (components : List Component) (phases : Bool)
    (hphases : phases = true →
      (ofGraph graph config mint).Throughout ComesInTurn (earlier ++ moves)) :
    let s := (ofGraph graph config mint).after earlier
    let script := Script.turn config.timing delay s.live id components
    let told := Script.told phases script
    let played := Script.told phases (s.played s.live draws 0 moves)
    s.pause? = some (.beforeTurn id components) →
      (played <+: told ∨ told <+: played) ∧
        ((s.after moves).live = s.live →
          Component.pausesOf components + 1 ≤ moves.countP (Move.isBy s.live) →
            told <+: played) ∧
        Script.withoutPhases script =
          (config.timing.preTurn, .stepCommitted s.live id .turn) ::
            (components.mapIdx fun k d => d.showing config.timing delay s.live
              (Script.beginsAt config.timing delay components k)).flatten := by
  intro s script told played hpause
  have hfresh : (ofGraph graph config mint).Sound := sound_ofGraph graph config mint
  have hs : s.Sound := hfresh.after earlier
  have hconfig : s.config = config := config_after _ earlier
  have hplays := hs.plays hpause rfl (hconfig ▸ hdelay) draws phases 0 moves fun htrue => by
    obtain ⟨hearlier, hmoves⟩ := throughout_append.mp (hphases htrue)
    exact ⟨hfresh.inPhase_after hearlier rfl, hmoves⟩
  simp only [hconfig, Script.ofPause, Nat.zero_add] at hplays
  refine ⟨?_, fun hlive hoften => ?_, Script.withoutPhases_turn _ _ _ id components⟩
  · exact hplays.elim .inr fun hbeginning => .inl hbeginning.1
  · rcases hplays with hall | ⟨-, hgiven | hfew⟩
    · exact hall
    · exact absurd hlive hgiven
    · exact absurd hfew (Nat.not_lt.mpr hoften)

/-- The greeting, letter by letter. -/
theorem turn_plays_script_welcome :
    let config := { Config.standard "s" with timing := Timing.standard.withCharacter 20 }
    let s := (ofGraph welcome config (.ofNonce "n")).after [.act .start true, .proceed ⟨1⟩]
    [(600, .stepCommitted ⟨1⟩ "hello" .turn), (600, .phaseChanged ⟨1⟩ .streaming),
      (620, .streamProgress ⟨1⟩ "h" "H"), (640, .streamProgress ⟨1⟩ "h" "Hi"),
      (640, .componentRevealed ⟨1⟩ "h")] <+:
        s.played ⟨1⟩ id 0 (List.replicate 4 (.proceed ⟨1⟩)) := by
  intro config s
  have h := (turn_plays_script welcome config (.ofNonce "n") 20 rfl id
    [.act .start true, .proceed ⟨1⟩] (List.replicate 4 (.proceed ⟨1⟩)) "hello" [.message "h" "Hi"]
    true (fun _ => by decide +kernel) (by decide +kernel)).2.1 (by decide +kernel)
    (by decide +kernel)
  have hlive : s.live = ⟨1⟩ := by decide +kernel
  rw [hlive, Script.told_true, Script.told_true] at h
  exact h

end Session

end Dialogue
