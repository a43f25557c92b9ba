import Dialogue.Proofs.Session.Beat
import Dialogue.Proofs.Session.Soundness

/-! What a conversation comes to once all that is on its way is delivered. A run that goes on leaves
this as it is, and a batch extends it in the same way whether it is queued or committed at once. -/

namespace Dialogue

namespace Entry

def isQuestion (e : Entry) : Bool := e.interceptor?.isSome

def shown (es : List Entry) : List ComponentId :=
  es.flatMap fun e => e.components.map Component.id

@[simp] theorem shown_nil : shown [] = [] := rfl

@[simp] theorem shown_cons (e : Entry) (es : List Entry) :
    shown (e :: es) = e.components.map Component.id ++ shown es := by
  simp [shown]

@[simp] theorem shown_append (es es' : List Entry) : shown (es ++ es') = shown es ++ shown es' := by
  simp [shown]

theorem components_of_isQuestion {e : Entry} (h : e.isQuestion = true) : e.components = [] := by
  cases e with
  | interceptor i => rfl
  | _ => simp [isQuestion, interceptor?] at h

theorem isQuestion_of_isInterceptor {e : Entry} {id : String} (h : e.isInterceptor id = true) :
    e.isQuestion = true := by
  obtain ⟨i, rfl, -⟩ := exists_of_isInterceptor h
  rfl

theorem shown_eraseP_isInterceptor (id : String) (es : List Entry) :
    shown (es.eraseP (isInterceptor id)) = shown es := by
  induction es with
  | nil => rfl
  | cons e rest ih =>
      cases h : e.isInterceptor id with
      | false => simp [h, ih]
      | true =>
          rw [List.eraseP_cons_of_pos h, shown_cons,
            components_of_isQuestion (isQuestion_of_isInterceptor h)]
          rfl

end Entry

@[simp] theorem NameSet.insertAll_nil (s : NameSet) : s.insertAll [] = s := rfl

theorem NameSet.insertAll_append (s : NameSet) (ns ns' : List String) :
    s.insertAll (ns ++ ns') = (s.insertAll ns).insertAll ns' :=
  List.foldl_append

namespace Pause

/-- The components of the turn in delivery that are still to be shown, once it is committed. -/
def toShow : Pause → List ComponentId
  | beforeComponent d rest | beforeReveal d rest => (d :: rest).map Component.id
  | beforeCharacter _ _ _ rest => rest.map Component.id
  | _ => []

theorem not_isInterceptor_of_mem_held (p : Option Pause) (id : String) :
    ∀ e ∈ p.elim [] held, ¬ e.isInterceptor id = true := by
  intro e he hid
  rcases p with _ | p
  · cases he
  · cases p with
    | beforeTurn step components =>
        rw [List.mem_singleton.mp he] at hid
        cases hid
    | _ => cases he

end Pause

/-- A conversation as it will be seen. -/
structure Outlook where
  history : List Entry
  store : Variables
  visible : NameSet
  cursor : Option StepId

namespace Outlook

def pending? (o : Outlook) : Option Interceptor := (o.history.filterMap Entry.interceptor?).head?

def without (o : Outlook) (id : String) : Outlook :=
  { o with history := o.history.eraseP (Entry.isInterceptor id) }

def withoutPending (o : Outlook) : Outlook :=
  { o with history := o.history.eraseP Entry.isQuestion }

def add (o : Outlook) (batch : List Entry) : Outlook :=
  { o with
    history := o.history ++ batch
    visible := o.visible.insertAll (Entry.shown batch) }

/-- The outlook with a batch behind it in which a question takes the place of the pending one. -/
def extend (o : Outlook) (batch : List Entry) : Outlook :=
  (if batch.any Entry.isQuestion then o.withoutPending else o).add batch

theorem without_of_pending? {o : Outlook} {i : Interceptor} (h : o.pending? = some i) :
    o.without i.id = o.withoutPending := by
  have herase : ∀ es : List Entry, (es.filterMap Entry.interceptor?).head? = some i →
      es.eraseP (Entry.isInterceptor i.id) = es.eraseP Entry.isQuestion := by
    intro es hes
    induction es with
    | nil => rfl
    | cons e rest ih =>
        cases hi : e.interceptor? with
        | none =>
            rw [List.filterMap_cons_none hi] at hes
            simp [Entry.isInterceptor, Entry.isQuestion, hi, ih hes]
        | some j =>
            rw [List.filterMap_cons_some hi, List.head?_cons, Option.some.injEq] at hes
            simp [Entry.isInterceptor, Entry.isQuestion, hi, hes]
  simp only [without, withoutPending, herase o.history h]

theorem withoutPending_of_pending? {o : Outlook} (h : o.pending? = none) :
    o.withoutPending = o := by
  have hnone : ∀ e ∈ o.history, e.isQuestion = false := by
    simpa [pending?, Entry.isQuestion, List.head?_eq_none_iff, List.filterMap_eq_nil_iff] using h
  simp only [withoutPending]
  rw [List.eraseP_of_forall_not]
  intro e he
  simp [hnone e he]

end Outlook

namespace Conversation

/-- The outlook where components and entries are still to come. -/
def outlookWith (c : Conversation) (ids : List ComponentId) (es : List Entry) : Outlook where
  history := c.history ++ es
  store := c.store
  visible := c.visible.insertAll (ids ++ Entry.shown es)
  cursor := c.cursor

/-- The outlook while the latest run waits at `p`, or while there is none. -/
def outlook (c : Conversation) (p : Option Pause) : Outlook :=
  c.outlookWith (p.elim [] Pause.toShow) (p.elim [] Pause.held ++ c.queue)

/-! ### Runs -/

theorem outlook_behind (c : Conversation) (rest : List Component) :
    c.outlook (some (.behind rest)) = c.outlookWith (rest.map Component.id) c.queue := by
  cases rest <;> rfl

/-- A beat leaves the outlook as it is. -/
theorem Beat.outlook_eq {run : Run} {c c' : Conversation} {p : Pause} {events : List Event}
    {p' : Option Pause} (h : Beat run c p events c' p') : c'.outlook p' = c.outlook (some p) := by
  cases h with
  | commit e rest hqueue hturn =>
      have hcomponents : e.components = [] := by
        cases e with
        | step s =>
            cases s with
            | turn id components => exact absurd rfl (hturn id components)
            | _ => rfl
        | _ => rfl
      simp [outlook, outlookWith, Conversation.commit, hqueue, hcomponents, Pause.toShow,
        Pause.held]
  | take id components rest hqueue =>
      simp [outlook, outlookWith, enter, hqueue, Pause.toShow, Pause.held]
  | openTurn id components =>
      rw [outlook_behind]
      simp [outlook, outlookWith, Conversation.commit, Pause.toShow, Pause.held,
        Entry.components, Step.components]
  | reveal d rest => exact outlook_behind (c.reveal d.id) rest
  | finish d ch rest => exact outlook_behind (c.push ch).finishStream rest
  | _ => rfl

theorem outlook_resumeFrom (run : Run) (c : Conversation) (p : Pause) :
    (resumeFrom run c p).state.outlook (resumeFrom run c p).pause = c.outlook (some p) :=
  (beats_resumeFrom run c p).invariant run (I := fun c' p' => c'.outlook p' = c.outlook (some p))
    (fun beat h => beat.outlook_eq.trans h) rfl

/-! ### Questions -/

theorem pending?_outlook (c : Conversation) (p : Option Pause) :
    (c.outlook p).pending? = c.pending? := by
  have hheld : (p.elim [] Pause.held).filterMap Entry.interceptor? = [] := by
    cases p with
    | none => rfl
    | some p => cases p <;> rfl
  simp [outlook, outlookWith, Outlook.pending?, pending?, interceptors, hheld]

theorem outlook_take? {c c' : Conversation} {id : String} {i : Interceptor} (p : Option Pause)
    (h : c.take? id = some (i, c')) : c'.outlook p = (c.outlook p).without id := by
  rcases take?_eq_some h with ⟨⟨e, he, hid⟩, rfl⟩ | ⟨hhistory, rfl⟩
  · simp only [outlook, outlookWith, Outlook.without]
    rw [List.eraseP_append_left hid _ he]
  · have hheld := Pause.not_isInterceptor_of_mem_held p id
    simp only [outlook, outlookWith, Outlook.without]
    rw [List.eraseP_append_right _ hhistory, List.eraseP_append_right _ hheld]
    simp [Entry.shown_eraseP_isInterceptor]

theorem exists_take?_of_isInterceptor {c : Conversation} {e : Entry} {id : String}
    (he : e ∈ c.history ++ c.queue) (hid : e.isInterceptor id = true) :
    ∃ j c', c.take? id = some (j, c') := by
  cases ht : c.take? id with
  | none => exact absurd hid (take?_eq_none ht e he)
  | some taken => exact ⟨taken.1, taken.2, rfl⟩

theorem exists_take?_of_pending? {c : Conversation} {i : Interceptor} (h : c.pending? = some i) :
    ∃ j c', c.take? i.id = some (j, c') := by
  obtain ⟨e, he, hi⟩ := List.mem_filterMap.mp (List.mem_of_mem_head? h)
  exact exists_take?_of_isInterceptor he (by simp [Entry.isInterceptor, hi])

end Conversation

namespace Session

def outlook (s : Session) : Outlook := s.state.outlook s.pause?

theorem outlook_supersede (s : Session) : s.supersede.1.outlook = s.outlook.withoutPending := by
  have hpending : s.outlook.pending? = s.state.pending? := s.state.pending?_outlook s.pause?
  unfold supersede
  split
  · next i state h =>
    obtain ⟨j, hj, ht⟩ := Option.bind_eq_some_iff.mp h
    rw [← hpending] at hj
    rw [← Outlook.without_of_pending? hj]
    exact Conversation.outlook_take? s.pause? ht
  · next h =>
    refine (Outlook.withoutPending_of_pending? ?_).symm
    rw [hpending]
    cases hj : s.state.pending? with
    | none => rfl
    | some i =>
        obtain ⟨j, c, ht⟩ := Conversation.exists_take?_of_pending? hj
        simp [Conversation.takePending?, hj, ht] at h

theorem outlook_applyNow {s : Session} (batch : List Entry) (hp : s.pause? = none)
    (hq : s.state.queue = []) : (s.applyNow batch).1.outlook = s.outlook.add batch := by
  have happly : ∀ c : Conversation, c.queue = [] →
      (c.apply batch).outlook none = (c.outlook none).add batch := by
    intro c hc
    induction batch generalizing c with
    | nil => simp [Conversation.apply, Outlook.add]
    | cons e rest ih =>
        rw [Conversation.apply_cons, ih (c.commitShown e) hc]
        simp [Conversation.outlook, Conversation.outlookWith, Conversation.commitShown,
          Conversation.commit, Outlook.add, hc, NameSet.insertAll_append]
  have hp' : (s.applyNow batch).1.pause? = none := hp
  simp only [outlook, hp, hp']
  exact happly s.state hq

theorem Sound.outlook_deliver {s : Session} (h : s.Sound) (batch : List Entry) :
    (s.deliver batch).outlook = s.outlook.add batch := by
  have henqueue : ∀ p, (s.state.enqueue batch).outlook p = (s.state.outlook p).add batch := by
    intro p
    simp [Conversation.outlook, Conversation.outlookWith, Conversation.enqueue, Outlook.add,
      ← List.append_assoc, NameSet.insertAll_append]
  have hpause := h.pause?_deliver batch
  simp only [outlook, hpause]
  cases ha : s.state.isActive with
  | true =>
      obtain ⟨p, hp⟩ := h.pause?_of_active ha
      rw [deliver_of_active batch ha, hp]
      exact henqueue (some p)
  | false =>
      rw [deliver_of_not_active batch ha, h.pause?_of_not_active ha]
      exact henqueue none

theorem Sound.outlook_hand {s : Session} (h : s.Sound) (batch : List Entry) {clock : Bool}
    (hturn : clock = true ∨ s.pause? = none) :
    (s.hand batch clock).1.outlook = s.outlook.add batch := by
  rcases s.hand_cases batch clock with ⟨ht, he⟩ | ⟨-, he⟩
  · have hp := h.pause?_of_inTurn hturn ht
    rw [he]
    exact outlook_applyNow batch hp (h.atPause.queue hp)
  · rw [he]
    exact h.outlook_deliver batch

/-- A batch that comes in turn extends the outlook, whether or not it is delivered with pauses. -/
theorem Sound.outlook_dispatch {s : Session} (h : s.Sound) (batch : List Entry) {clock : Bool}
    (hturn : clock = true ∨ s.pause? = none) :
    (s.dispatch batch clock).1.outlook = s.outlook.extend batch := by
  unfold dispatch
  split
  · next he =>
    rw [List.isEmpty_iff.mp he]
    simp [Outlook.extend, Outlook.add]
  · have hany : (batch.any fun e => e.interceptor?.isSome) = batch.any Entry.isQuestion := rfl
    rw [hany, Outlook.extend]
    split
    · rw [← outlook_supersede]
      exact (sound_supersede h).outlook_hand batch (s.pause?_supersede ▸ hturn)
    · exact h.outlook_hand batch hturn

theorem Sound.outlook_proceed {s : Session} (h : s.Sound) (run : Run) :
    (s.proceed run).1.outlook = s.outlook := by
  rcases s.proceed_cases run with he | ⟨p, rfl, hp, he⟩ | ⟨hr, he⟩
  · rw [he]
  · rw [he]
    simp only [outlook, h.pause?_moveRun hp, hp]
    exact Conversation.outlook_resumeFrom s.live s.state p
  · rw [he]
    simp only [outlook, pause?_moveRun_of_ne hr]

/-- Where nothing is on its way, the outlook is what is there. -/
theorem Sound.outlook_of_pause?_eq_none {s : Session} (h : s.Sound) (hp : s.pause? = none) :
    s.outlook = ⟨s.state.history, s.state.store, s.state.visible, s.state.cursor⟩ := by
  have hq := h.atPause.queue hp
  simp [outlook, hp, Conversation.outlook, Conversation.outlookWith, hq]

end Session

end Dialogue
