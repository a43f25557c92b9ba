import Dialogue.Proofs.Session.Outlook
import Dialogue.Proofs.Session.Stride

/-! What has been dispatched is delivered in order, and nothing of it is lost or comes twice. A log
keeps all batches, without the questions that were taken out and without what a stop gave up; at
each moment it is told by history, by the turn in the hands of the latest run, and by the queue. -/

namespace Dialogue

namespace Entry

/-- What tells entries apart. -/
def label (e : Entry) : String × EntryKind := (e.id, e.kind)

def isFeedback (e : Entry) : Bool := e.kind = .feedback

theorem isInterceptor_iff (id : String) (e : Entry) :
    e.isInterceptor id = true ↔ e.label = (id, .interceptor) := by
  cases e with
  | step s => cases s <;> simp [isInterceptor, interceptor?, label, kind, Step.kind]
  | interceptor i => simp [isInterceptor, interceptor?, label, kind, Entry.id]
  | _ => simp [isInterceptor, interceptor?, label, kind]

theorem isFeedback_of_isInterceptor {e : Entry} {id : String} (h : e.isInterceptor id = true) :
    e.isFeedback = false := by
  rw [isInterceptor_iff] at h
  simp [isFeedback, (Prod.mk.inj h).2]

def unmarked (es : List Entry) : List Entry := es.filter fun e => !e.isFeedback

def dropLatest (es : List Entry) (e : Entry) : List Entry := (es.reverse.erase e).reverse

theorem foldl_dropLatest (es : List Entry) {last gone : List Entry} (h : last.Perm gone) :
    gone.foldl dropLatest (es ++ last) = es := by
  induction gone generalizing last with
  | nil => simp [h.eq_nil]
  | cons e rest ih =>
      have hmem : e ∈ last.reverse := by simp [h.mem_iff]
      have hdrop : dropLatest (es ++ last) e = es ++ dropLatest last e := by
        simp only [dropLatest, List.reverse_append]
        rw [List.erase_append_left _ hmem]
        simp
      have hperm : (dropLatest last e).Perm rest := by
        have hrest := ((List.reverse_perm last).trans h).erase e
        rw [List.erase_cons_head] at hrest
        exact (List.reverse_perm _).trans hrest
      rw [List.foldl_cons, hdrop]
      exact ih hperm

theorem map_label_eraseP (es : List Entry) (id : String) :
    (es.eraseP (isInterceptor id)).map label =
      (es.map label).eraseP fun l => l = (id, .interceptor) := by
  have hlabel : isInterceptor id = (fun l => decide (l = (id, .interceptor))) ∘ label := by
    funext e
    rw [Bool.eq_iff_iff, isInterceptor_iff]
    simp
  rw [hlabel, List.eraseP_map]

theorem map_label_unmarked (es : List Entry) :
    (unmarked es).map label = (es.map label).filter fun l => !(decide (l.2 = .feedback)) := by
  rw [List.filter_map]
  rfl

theorem unmarked_eraseP (es : List Entry) (id : String) :
    unmarked (es.eraseP (isInterceptor id)) = (unmarked es).eraseP (isInterceptor id) := by
  induction es with
  | nil => rfl
  | cons e rest ih =>
      cases hid : e.isInterceptor id with
      | true => simp [unmarked, hid, isFeedback_of_isInterceptor hid]
      | false =>
          simp only [unmarked] at ih ⊢
          cases hf : e.isFeedback <;> simp [hid, hf, ih]

theorem exists_isInterceptor_iff (es : List Entry) (id : String) :
    (∃ e ∈ es, e.isInterceptor id = true) ↔ (id, .interceptor) ∈ es.map label := by
  simp [isInterceptor_iff]

theorem exists_isInterceptor_congr {es es' : List Entry}
    (h : es.map label = (unmarked es').map label) (id : String) :
    (∃ e ∈ es, e.isInterceptor id = true) ↔ ∃ e ∈ es', e.isInterceptor id = true := by
  rw [exists_isInterceptor_iff, h, ← exists_isInterceptor_iff]
  constructor
  · rintro ⟨e, he, hid⟩
    exact ⟨e, (List.mem_filter.mp he).1, hid⟩
  · rintro ⟨e, he, hid⟩
    exact ⟨e, List.mem_filter.mpr ⟨he, by simp [isFeedback_of_isInterceptor hid]⟩, hid⟩

end Entry

theorem Cut.map_label_apply (c : Cut) (history : List Entry) :
    (c.apply history).map Entry.label = history.map Entry.label := by
  have hlabel : ∀ id text n (es : List Entry),
      (inEntries id text n es).map Entry.label = es.map Entry.label := by
    intro id text n es
    fun_induction inEntries id text n es <;> simp_all [Entry.label]
  exact hlabel _ _ _ history

theorem Conversation.Beat.history_prefix {run : Run} {c c' : Conversation} {p : Pause}
    {events : List Event} {p' : Option Pause} (h : Beat run c p events c' p') :
    c.history <+: c'.history := by
  cases h with
  | commit => exact List.prefix_append _ _
  | openTurn => exact List.prefix_append _ _
  | _ => exact List.prefix_refl _

namespace Session

/-- What is on its way: the turn in the hands of the latest run, and the queue. -/
def backlog (s : Session) : List Entry := s.held ++ s.state.queue

/-- A log tells, behind what is delivered, what is on its way. -/
structure Logged (s : Session) (log : List Entry) : Prop where
  told : ∃ delivered, log = delivered ++ s.backlog ∧
    delivered.map Entry.label = (Entry.unmarked s.state.history).map Entry.label
  unmarked : ∀ e ∈ log, e.isFeedback = false

namespace Logged

variable {s s' : Session} {log : List Entry}

theorem append (h : s.Logged log) {batch : List Entry}
    (hhistory : s.state.history <+: s'.state.history)
    (houtlook : s'.outlook.history = s.outlook.history ++ batch)
    (hbatch : ∀ e ∈ batch, e.isFeedback = false) : s'.Logged (log ++ batch) := by
  obtain ⟨⟨delivered, hlog, hlabel⟩, hunmarked⟩ := h
  obtain ⟨more, hmore⟩ := hhistory
  have hbacklog : more ++ s'.backlog = s.backlog ++ batch := by
    have hs : s.outlook.history = s.state.history ++ s.backlog := rfl
    have hs' : s'.outlook.history = s'.state.history ++ s'.backlog := rfl
    rw [hs, hs', ← hmore, List.append_assoc, List.append_assoc] at houtlook
    exact List.append_cancel_left houtlook
  have hall : ∀ e ∈ log ++ batch, e.isFeedback = false := by
    intro e he
    rcases List.mem_append.mp he with he | he
    · exact hunmarked e he
    · exact hbatch e he
  have hlog' : log ++ batch = delivered ++ more ++ s'.backlog := by
    rw [hlog, List.append_assoc, ← hbacklog, List.append_assoc]
  have hself : Entry.unmarked more = more := by
    refine List.filter_eq_self.mpr fun e he => ?_
    simp [hall e (by simp [hlog', he])]
  refine ⟨⟨delivered ++ more, hlog', ?_⟩, hall⟩
  have hsplit : Entry.unmarked s'.state.history = Entry.unmarked s.state.history ++ more := by
    rw [← hmore, Entry.unmarked, List.filter_append]
    exact congrArg _ hself
  rw [hsplit, List.map_append, List.map_append, hlabel]

theorem frame (h : s.Logged log) (history : s'.state.history = s.state.history)
    (backlog : s'.backlog = s.backlog) : s'.Logged log := by
  refine ⟨?_, h.unmarked⟩
  rw [history, backlog]
  exact h.told

theorem eraseP (h : s.Logged log) {id : String} {i : Interceptor} {c : Conversation}
    (ht : s.state.take? id = some (i, c)) :
    Logged { s with state := c } (log.eraseP (Entry.isInterceptor id)) := by
  obtain ⟨⟨delivered, hlog, hlabel⟩, hunmarked⟩ := h
  have hiff := Entry.exists_isInterceptor_congr hlabel id
  refine ⟨?_, fun e he => hunmarked e (List.mem_of_mem_eraseP he)⟩
  rcases Conversation.take?_eq_some ht with ⟨hhistory, rfl⟩ | ⟨hhistory, rfl⟩
  · obtain ⟨e, he, hid⟩ := hiff.mpr hhistory
    refine ⟨delivered.eraseP (Entry.isInterceptor id), ?_, ?_⟩
    · rw [hlog, List.eraseP_append_left hid _ he]
      rfl
    · rw [Entry.unmarked_eraseP, Entry.map_label_eraseP, Entry.map_label_eraseP, hlabel]
  · have hdelivered : ∀ e ∈ delivered, ¬ e.isInterceptor id = true := by
      intro e he hid
      obtain ⟨e', he', hid'⟩ := hiff.mp ⟨e, he, hid⟩
      exact hhistory e' he' hid'
    refine ⟨delivered, ?_, hlabel⟩
    have hheld : ∀ e ∈ s.held, ¬ e.isInterceptor id = true :=
      Pause.not_isInterceptor_of_mem_held s.pause? id
    rw [hlog, List.eraseP_append_right _ hdelivered, backlog, List.eraseP_append_right _ hheld]
    rfl

theorem not_isInterceptor (h : s.Logged log) {id : String} (ht : s.state.take? id = none) :
    ∀ e ∈ log, ¬ e.isInterceptor id = true := by
  obtain ⟨⟨delivered, hlog, hlabel⟩, -⟩ := h
  have hnone := Conversation.take?_eq_none ht
  intro e he hid
  rw [hlog, backlog] at he
  rcases List.mem_append.mp he with he | he
  · obtain ⟨e', he', hid'⟩ := (Entry.exists_isInterceptor_congr hlabel id).mp ⟨e, he, hid⟩
    exact hnone e' (List.mem_append_left _ he') hid'
  · rcases List.mem_append.mp he with he | he
    · exact Pause.not_isInterceptor_of_mem_held s.pause? id e he hid
    · exact hnone e (List.mem_append_right _ he) hid

end Logged

def strike (log : List Entry) (id : Option String) : List Entry :=
  id.elim log fun id => log.eraseP (Entry.isInterceptor id)

/-- The log after a move. A batch that an act dispatches is appended; the question that was answered
is struck out, and so is the pending one if the batch has a new one. A stop that has an effect takes
back what was on its way. -/
def record (s : Session) (log : List Entry) : Move → List Entry
  | .act a _ =>
    let p := s.plan a
    let log := strike log (s.answered? a)
    let log := if p.batch.any Entry.isQuestion then
        strike log (p.session.state.pending?.map Interceptor.id)
      else log
    log ++ p.batch
  | .stop _ => if s.state.isDelivering then s.backlog.foldl Entry.dropLatest log else log
  | _ => log

def logged (s : Session) (log : List Entry) : List Move → List Entry
  | [] => log
  | m :: rest => (s.perform m).session.logged (s.record log m) rest

variable {s : Session} {log : List Entry}

theorem Logged.resolve (h : s.Logged log) (ch : Choice) (freshId : String) :
    Logged { s with state := (s.state.resolve ch freshId).2 }
      (strike log (some ch.interceptorId)) := by
  unfold Conversation.resolve
  cases ht : s.state.take? ch.interceptorId with
  | none =>
      rw [strike, Option.elim, List.eraseP_of_forall_not (h.not_isInterceptor ht)]
      exact h
  | some taken =>
      simp only
      split
      · exact h.eraseP ht
      · exact (h.eraseP ht).frame rfl rfl

theorem Logged.planResumption (h : s.Logged log) (r : Resumption) :
    (s.planResumption r).session.Logged log := by
  cases r <;> exact h.frame rfl rfl

theorem Logged.planAnswer (h : s.Logged log) (ch : Choice) :
    (s.planAnswer ch).session.Logged (strike log (some ch.interceptorId)) := by
  have hresolved : Logged
      { s with
        state := (s.state.resolve ch s.mint.interceptorId).2
        mint := s.mint.advance } (strike log (some ch.interceptorId)) :=
    (h.resolve ch s.mint.interceptorId).frame rfl rfl
  exact hresolved.planResumption _

theorem Logged.plan (h : s.Logged log) (a : Act) :
    (s.plan a).session.Logged (strike log (s.answered? a)) := by
  rcases s.plan_cases a with ⟨_, ha, hp⟩ | ⟨r, ha, hp⟩ | ⟨text, r, ha, hp⟩ | ⟨choice, ha, hp⟩
  · rw [hp, ha]
    exact h
  · rw [hp, ha]
    exact h.frame rfl rfl
  · rw [hp, ha]
    exact h.frame rfl rfl
  · rw [hp, ha]
    exact h.planAnswer choice

theorem Logged.supersede (h : s.Logged log) :
    s.supersede.1.Logged (strike log (s.state.pending?.map Interceptor.id)) := by
  unfold Session.supersede
  cases hi : s.state.pending? with
  | none =>
      simp only [Conversation.takePending?, hi, Option.bind_none]
      exact h
  | some i =>
      obtain ⟨j, c, ht⟩ := Conversation.exists_take?_of_pending? hi
      simp only [Conversation.takePending?, hi, Option.bind_some, ht]
      exact h.eraseP ht

theorem history_prefix_hand (s : Session) (batch : List Entry) (clock : Bool) :
    s.state.history <+: (s.hand batch clock).1.state.history := by
  rcases s.hand_cases batch clock with ⟨-, he⟩ | ⟨-, he⟩
  · simp [he, applyNow]
  · rw [he]
    cases ha : s.state.isActive with
    | true =>
        rw [deliver_of_active batch ha]
        exact List.prefix_rfl
    | false =>
        rw [deliver_of_not_active batch ha]
        exact List.prefix_rfl

section Batch

variable (hs : s.Sound) {batch : List Entry} (hbatch : ∀ e ∈ batch, e.isFeedback = false)
  {clock : Bool} (hturn : clock = true ∨ s.pause? = none)

include hs hbatch hturn

theorem Logged.hand (h : s.Logged log) : (s.hand batch clock).1.Logged (log ++ batch) :=
  h.append (s.history_prefix_hand batch clock)
    (congrArg Outlook.history (hs.outlook_hand batch hturn)) hbatch

theorem Logged.dispatch (h : s.Logged log) :
    (s.dispatch batch clock).1.Logged
      ((if batch.any Entry.isQuestion then strike log (s.state.pending?.map Interceptor.id)
        else log) ++ batch) := by
  have hany : (batch.any fun e => e.interceptor?.isSome) = batch.any Entry.isQuestion := rfl
  unfold Session.dispatch
  rw [hany]
  split
  · next he =>
    rw [List.isEmpty_iff.mp he]
    simpa using h
  · split
    · exact h.supersede.hand (sound_supersede hs) hbatch (s.pause?_supersede ▸ hturn)
    · exact h.hand hs hbatch hturn

end Batch

theorem isFeedback_of_mem_plan (s : Session) (a : Act) :
    ∀ e ∈ (s.plan a).batch, e.isFeedback = false := by
  intro e he
  cases s.comesFrom_of_mem_plan a e he with
  | @step st h => cases st <;> rfl
  | interceptor i => rfl
  | userMessage m => rfl

theorem history_prefix_proceed (s : Session) (run : Run) :
    s.state.history <+: (s.proceed run).1.state.history := by
  rcases s.proceed_cases run with he | ⟨p, -, -, he⟩ | ⟨-, he⟩
  · simp only [he, List.prefix_rfl]
  · rw [he]
    exact (Conversation.beats_resumeFrom s.live s.state p).invariant s.live
      (I := fun c _ => s.state.history <+: c.history) (fun beat h => h.trans beat.history_prefix)
      List.prefix_rfl
  · simp only [he, List.prefix_rfl]

theorem Logged.proceed (h : s.Logged log) (hs : s.Sound) (run : Run) :
    (s.proceed run).1.Logged log := by
  have houtlook := congrArg Outlook.history (hs.outlook_proceed run)
  rw [← List.append_nil s.outlook.history] at houtlook
  simpa using h.append (s.history_prefix_proceed run) houtlook nofun

/-- A stop takes back just what was on its way. -/
theorem Logged.stop (h : s.Logged log) (hs : s.Sound) (now : Timestamp) :
    (s.stop now).session.Logged (s.record log (.stop now)) := by
  rcases s.stop_cases now with ⟨hd, he⟩ | ⟨hd, he⟩
  · have hnone : s.pause? = none := by
      rw [hs.atPause.isDelivering_eq] at hd
      exact hs.pause?_of_not_active hd
    have hpause : pause? { s with live := s.live.next } = none := hs.pauseOf?_next
    have hrecord : s.record log (.stop now) = log := by simp [record, hd]
    rw [he, hrecord]
    exact h.frame rfl (by simp [backlog, held, hpause, hnone])
  · obtain ⟨⟨delivered, hlog, hlabel⟩, hunmarked⟩ := h
    have hheld : (s.stop now).session.held = [] := by
      have hpause : (s.stop now).session.pause? = none := by
        rw [he]
        exact hs.pauseOf?_next
      simp [held, hpause]
    have hbacklog : (s.stop now).session.backlog = [] := by
      rw [backlog, hheld, he]
      rfl
    have hrecord : s.record log (.stop now) = delivered := by
      simp only [record, hd, if_true, hlog]
      exact Entry.foldl_dropLatest delivered (List.Perm.refl s.backlog)
    have hcut : (s.state.cut?.elim s.state.history fun cut => cut.apply s.state.history).map
        Entry.label = s.state.history.map Entry.label := by
      cases s.state.cut? with
      | none => rfl
      | some cut => exact cut.map_label_apply s.state.history
    have hhistory : (Entry.unmarked (s.stop now).session.state.history).map Entry.label =
        (Entry.unmarked s.state.history).map Entry.label := by
      simp only [Entry.map_label_unmarked, he, Conversation.halt, List.map_append, hcut]
      simp [Entry.label, Entry.kind]
    rw [hrecord]
    refine ⟨⟨delivered, by simp [hbacklog], hlabel.trans hhistory.symm⟩, ?_⟩
    intro e hmem
    exact hunmarked e (by simp [hlog, hmem])

/-- A move that keeps history keeps the log in step with it. -/
theorem Logged.perform (h : s.Logged log) (hs : s.Sound) {m : Move} (hreset : m ≠ .reset)
    (hgraph : ∀ graph, m ≠ .setGraph graph) (hturn : s.ComesInTurn m) :
    (s.perform m).session.Logged (s.record log m) := by
  cases m with
  | act a clock =>
      simp only [Session.perform, Response.session_map, act_eq_carryOut]
      exact (h.plan a).dispatch (sound_plan a hs) (s.isFeedback_of_mem_plan a)
        (hs.inTurn_plan hturn)
  | stop now => exact h.stop hs now
  | reset => exact absurd rfl hreset
  | setGraph graph => exact absurd rfl (hgraph graph)
  | setVariable name value => exact h.frame rfl rfl
  | proceed run => exact h.proceed hs run

theorem Logged.after (h : s.Logged log) (hs : s.Sound) (moves : List Move)
    (hmoves : ∀ m ∈ moves, m ≠ .reset ∧ ∀ graph, m ≠ .setGraph graph)
    (hturn : s.Throughout ComesInTurn moves) : (s.after moves).Logged (s.logged log moves) := by
  induction moves generalizing s log with
  | nil => exact h
  | cons m rest ih =>
      have hm := hmoves m (by simp)
      refine ih (h.perform hs hm.1 hm.2 hturn.1) (sound_perform m hs) ?_ hturn.2
      intro m hmem
      exact hmoves m (by simp [hmem])

/-- History without feedback, the turn in the hands of the latest run and the queue are at each
moment what has been dispatched, in order, but for questions that were answered or replaced and for
what a stop gave up. Acts without a clock at hand are to come while nothing is delivered. -/
theorem told_in_order (graph : FlowGraph) (config : Config) (mint : Mint) (moves : List Move)
    (hmoves : ∀ m ∈ moves, m ≠ .reset ∧ ∀ graph, m ≠ .setGraph graph)
    (hturn : (ofGraph graph config mint).Throughout ComesInTurn moves) :
    let fresh := ofGraph graph config mint
    let s := fresh.after moves
    (Entry.unmarked s.state.history ++ s.held ++ s.state.queue).map Entry.label =
      (fresh.logged [] moves).map Entry.label := by
  intro fresh s
  have hfresh : fresh.Logged [] := ⟨⟨[], rfl, rfl⟩, nofun⟩
  obtain ⟨⟨delivered, hlog, hlabel⟩, -⟩ := hfresh.after (sound_ofGraph ..) moves hmoves hturn
  rw [List.append_assoc, List.map_append, ← hlabel, ← List.map_append, hlog]
  rfl

/-- A stop takes back the question that was still in the queue, and the turn before it. -/
theorem told_in_order_welcome :
    let moves : List Move := [.act .start true, .proceed ⟨1⟩, .stop default, .act .start true]
    let s := (ofGraph welcome (.standard "s") (.ofNonce "n")).after moves
    (Entry.unmarked s.state.history ++ s.held ++ s.state.queue).map Entry.label =
      [("hello", .turn), ("mood", .condition), ("interceptor-n-2", .interceptor)] := by
  intro moves s
  have h := told_in_order welcome (.standard "s") (.ofNonce "n") moves (by simp [moves])
    (by decide +kernel)
  exact h.trans rfl

end Session

end Dialogue
