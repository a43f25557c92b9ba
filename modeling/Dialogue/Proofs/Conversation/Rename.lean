import Dialogue.Session.Work

/-! Renaming made-up ids. The ids of questions, of feedback and of what the user said mean nothing
by themselves: a conversation does the same under any renaming of them that is one to one, and a run
does the same under any number. -/

namespace Dialogue

def Run.later (r : Run) (n : Nat) : Run := ⟨n + r.number⟩

theorem Run.later_inj {r r' : Run} {n : Nat} : r.later n = r'.later n ↔ r = r' := by
  cases r
  cases r'
  simp [later]

def Interceptor.rename (f : String → String) (i : Interceptor) : Interceptor :=
  { i with id := f i.id }

/-- Whether entries of the kind are not steps of the flow, so that their ids are made up. -/
def EntryKind.isMadeUp : EntryKind → Bool
  | feedback | interceptor | userMessage => true
  | _ => false

namespace Entry

/-- The entry with another id, unless it is a step of the flow. -/
def rename (f : String → String) : Entry → Entry
  | step s => step s
  | feedback m => feedback { m with id := f m.id }
  | interceptor i => interceptor (i.rename f)
  | userMessage m => userMessage { m with id := f m.id }

variable (f : String → String)

@[simp] theorem interceptor?_rename (e : Entry) :
    (e.rename f).interceptor? = e.interceptor?.map (Interceptor.rename f) := by
  cases e <;> rfl

theorem filterMap_interceptor?_rename (es : List Entry) :
    (es.map (rename f)).filterMap interceptor? =
      (es.filterMap interceptor?).map (Interceptor.rename f) := by
  rw [List.map_filterMap, List.filterMap_map]
  congr 1
  funext e
  exact e.interceptor?_rename f

@[simp] theorem components_rename (e : Entry) : (e.rename f).components = e.components := by
  cases e <;> rfl

@[simp] theorem kind_rename (e : Entry) : (e.rename f).kind = e.kind := by
  cases e <;> rfl

theorem id_rename (e : Entry) :
    (e.rename f).id = if e.kind.isMadeUp then f e.id else e.id := by
  cases e with
  | step s => cases s <;> rfl
  | _ => rfl

@[simp] theorem copies_rename (id : ComponentId) (e : Entry) :
    (e.rename f).copies id = e.copies id := by
  simp [copies]

theorem cut_rename (id : ComponentId) (text : String) (n : Nat) (e : Entry) :
    (e.rename f).cut id text n = (e.cut id text n).rename f := by
  cases e <;> rfl

theorem patch?_rename (g : FlowGraph) (e : Entry) :
    (e.rename f).patch? g = (e.patch? g).map (rename f) := by
  cases e with
  | step s => simp only [rename, patch?]; cases g.step? s.id <;> rfl
  | interceptor i =>
      simp only [rename, Interceptor.rename, patch?]
      cases g.step? i.stepId with
      | none => rfl
      | some s => cases s <;> rfl
  | _ => rfl

@[simp] theorem isPatchable_rename (e : Entry) : (e.rename f).isPatchable = e.isPatchable := by
  cases e <;> rfl

@[simp] theorem gains_rename (g : FlowGraph) (e : Entry) :
    (e.rename f).gains g = e.gains g := by
  cases e <;> rfl

theorem isInterceptor_rename {f : String → String} (hf : f.Injective) (id : String) (e : Entry) :
    (e.rename f).isInterceptor (f id) = e.isInterceptor id := by
  cases e with
  | interceptor i =>
      rw [Bool.eq_iff_iff]
      simp [isInterceptor, rename, interceptor?, Interceptor.rename, hf.eq_iff]
  | _ => rfl

end Entry

/-- The event with another id where it tells one that is made up, and its run so many numbers
later. -/
def Event.rename (f : String → String) (n : Nat) : Event → Event
  | phaseChanged run phase => phaseChanged (run.later n) phase
  | stepCommitted run id kind =>
    stepCommitted (run.later n) (if kind.isMadeUp then f id else id) kind
  | componentRevealed run id => componentRevealed (run.later n) id
  | streamProgress run id text => streamProgress (run.later n) id text
  | interceptorRaised run id name step => interceptorRaised (run.later n) (f id) name step
  | stopped run truncated => stopped (run.later n) truncated
  | event => event

/-- What is told of no run tells no made-up id. -/
theorem Event.map_rename_of_run? {f : String → String} {n : Nat} {events : List Event}
    (h : ∀ event ∈ events, event.run? = none) : events.map (Event.rename f n) = events := by
  refine (List.map_congr_left fun event hevent => ?_).trans (List.map_id events)
  have hrun := h event hevent
  cases event with
  | variableUpdated | noIntentMatch | diagnostic => rfl
  | _ => cases hrun

namespace Entry

variable (f : String → String) (n : Nat) (run : Run)

theorem raised_rename (e : Entry) :
    (e.rename f).raised (run.later n) = (e.raised run).map (Event.rename f n) := by
  cases e <;> rfl

theorem announced_rename (e : Entry) :
    (e.rename f).announced (run.later n) = (e.announced run).map (Event.rename f n) := by
  simp [announced, raised_rename, id_rename, Event.rename]

theorem announcedShown_rename (e : Entry) :
    (e.rename f).announcedShown (run.later n) = (e.announcedShown run).map (Event.rename f n) := by
  simp [announcedShown, raised_rename, id_rename, Event.rename, Function.comp_def]

end Entry

namespace Cut

variable (f : String → String)

theorem inEntries_rename (id : ComponentId) (text : String) (n : Nat) (es : List Entry) :
    inEntries id text n (es.map (Entry.rename f)) =
      (inEntries id text n es).map (Entry.rename f) := by
  fun_induction inEntries id text n es with
  | case1 n => rfl
  | case2 n e rest hn => simp [inEntries, hn, Entry.cut_rename]
  | case3 n e rest hn ih => simp [inEntries, hn, ih]

theorem apply_rename (c : Cut) (history : List Entry) :
    c.apply (history.map (Entry.rename f)) = (c.apply history).map (Entry.rename f) :=
  inEntries_rename f _ _ _ _

theorem ofNewest?_rename (history : List Entry) (id : ComponentId) (text : String) :
    ofNewest? (history.map (Entry.rename f)) id text = ofNewest? history id text := by
  simp [ofNewest?, Function.comp_def]

end Cut

def Resumption.rename (f : String → String) : Resumption → Resumption
  | stillMissing question written => stillMissing (question.rename f) written
  | r => r

@[simp] theorem Resumption.written?_rename (f : String → String) (r : Resumption) :
    (r.rename f).written? = r.written? := by
  cases r <;> rfl

def Choice.rename (f : String → String) (ch : Choice) : Choice :=
  { ch with interceptorId := f ch.interceptorId }

namespace Conversation

def rename (f : String → String) (c : Conversation) : Conversation :=
  { c with
    history := c.history.map (Entry.rename f)
    queue := c.queue.map (Entry.rename f) }

end Conversation

def Segment.rename (f : String → String) (n : Nat) (s : Segment) : Segment :=
  ⟨s.state.rename f, s.events.map (Event.rename f n), s.pause⟩

namespace Conversation

variable (f : String → String) (c : Conversation)

theorem commit_rename (e : Entry) : (c.rename f).commit (e.rename f) = (c.commit e).rename f := by
  simp [commit, rename]

theorem commitShown_rename (e : Entry) :
    (c.rename f).commitShown (e.rename f) = (c.commitShown e).rename f := by
  simp [commitShown, commit, rename]

theorem apply_rename (batch : List Entry) :
    (c.rename f).apply (batch.map (Entry.rename f)) = (c.apply batch).rename f := by
  induction batch generalizing c with
  | nil => rfl
  | cons e rest ih => rw [List.map_cons, apply_cons, apply_cons, commitShown_rename, ih]

theorem enqueue_rename (batch : List Entry) :
    (c.rename f).enqueue (batch.map (Entry.rename f)) = (c.enqueue batch).rename f := by
  simp [enqueue, rename]

theorem pending?_rename : (c.rename f).pending? = c.pending?.map (Interceptor.rename f) := by
  simp only [pending?, interceptors, rename]
  rw [← List.map_append, Entry.filterMap_interceptor?_rename, List.head?_map]

/-! ### Runs -/

section Run

variable (n : Nat) (run : Run)

theorem enter_rename (phase : Phase) :
    enter (run.later n) (c.rename f) phase =
      ((enter run c phase).1.rename f, (enter run c phase).2.map (Event.rename f n)) := by
  have hphase : (c.rename f).phase = c.phase := rfl
  unfold enter
  rw [hphase]
  split <;> rfl

theorem entered_rename (phase : Phase) (pause : Option Pause) :
    (⟨(enter (run.later n) (c.rename f) phase).1, (enter (run.later n) (c.rename f) phase).2,
      pause⟩ : Segment) =
      Segment.rename f n ⟨(enter run c phase).1, (enter run c phase).2, pause⟩ := by
  rw [enter_rename]
  rfl

theorem drain_rename (queue : List Entry) :
    drain (run.later n) (c.rename f) (queue.map (Entry.rename f)) =
      (drain run c queue).rename f n := by
  fun_induction drain run c queue with
  | case1 c => rfl
  | case2 c id components rest c' events h =>
      have hentered := entered_rename f { c with queue := rest } n run .thinking
        (some (.beforeTurn id components))
      rw [h] at hentered
      exact hentered
  | case3 c e rest he ih =>
      have he' : ∀ id components, e.rename f = .step (.turn id components) → False := by
        intro id components hturn
        cases e with
        | step s => exact he id components hturn
        | _ => cases hturn
      rw [List.map_cons, drain, commit_rename, ih, Entry.announced_rename]
      · simp [Segment.after, Segment.rename]
      · exact he'

theorem begin_rename (d : Component) (rest : List Component) :
    begin (run.later n) (c.rename f) d rest = (begin run c d rest).rename f n := by
  unfold begin
  split
  · rfl
  · exact entered_rename f c n run .instantReveal _

theorem proceed_rename (previous : Component) (rest : List Component) :
    proceed (run.later n) (c.rename f) previous rest =
      (proceed run c previous rest).rename f n := by
  cases rest with
  | nil => exact drain_rename f c n run c.queue
  | cons d rest =>
      simp only [proceed]
      split
      · exact begin_rename f c n run d rest
      · exact entered_rename f c n run .pausedBetween _

theorem after_rename {s s' : Segment} {events events' : List Event} (hs : s' = s.rename f n)
    (hevents : events' = events.map (Event.rename f n)) :
    s'.after events' = (s.after events).rename f n := by
  simp [hs, hevents, Segment.after, Segment.rename]

theorem openTurn_rename (id : StepId) (components : List Component) :
    openTurn (run.later n) (c.rename f) id components =
      (openTurn run c id components).rename f n := by
  let opened := { c with isThinking := false }.commit (.step (.turn id components))
  have hopened : { c.rename f with isThinking := false }.commit (.step (.turn id components)) =
      opened.rename f :=
    commit_rename f { c with isThinking := false } (.step (.turn id components))
  unfold openTurn
  simp only [hopened]
  refine after_rename f n ?_ (Entry.announced_rename f n run (.step (.turn id components)))
  cases components with
  | nil => exact drain_rename f opened n run opened.queue
  | cons d rest => exact begin_rename f opened n run d rest

theorem write_rename (d : Component) (ch : Char) (chars : List Char) (rest : List Component) :
    write (run.later n) (c.rename f) d ch chars rest =
      (write run c d ch chars rest).rename f n := by
  have hprogress : ((c.rename f).push ch).streaming.toList.map (fun s =>
        Event.streamProgress (run.later n) d.id s.text) =
      ((c.push ch).streaming.toList.map fun s =>
        Event.streamProgress run d.id s.text).map (Event.rename f n) := by
    rw [List.map_map]
    rfl
  cases chars with
  | nil =>
      refine after_rename f n (proceed_rename f (c.push ch).finishStream n run d rest) ?_
      rw [List.map_append, hprogress]
      rfl
  | cons ch' chars =>
      simp only [write, hprogress]
      rfl

/-- A run does the same under any renaming and any number. -/
theorem resumeFrom_rename (p : Pause) :
    resumeFrom (run.later n) (c.rename f) p = (resumeFrom run c p).rename f n := by
  cases p with
  | unstarted => exact drain_rename f c n run c.queue
  | beforeTurn id components => exact openTurn_rename f c n run id components
  | beforeComponent d rest => exact begin_rename f c n run d rest
  | beforeReveal d rest =>
      exact after_rename f n (proceed_rename f (c.reveal d.id) n run d rest) rfl
  | beforeCharacter d ch chars rest => exact write_rename f c n run d ch chars rest

end Run

/-! ### What the user does -/

section Questions

variable {f} (hf : f.Injective)

include hf

theorem find?_isInterceptor_rename (es : List Entry) (id : String) :
    ((es.map (Entry.rename f)).find? (Entry.isInterceptor (f id))).bind Entry.interceptor? =
      ((es.find? (Entry.isInterceptor id)).bind Entry.interceptor?).map (Interceptor.rename f) := by
  have hsame : Entry.isInterceptor (f id) ∘ Entry.rename f = Entry.isInterceptor id :=
    funext (Entry.isInterceptor_rename hf id)
  rw [List.find?_map, hsame]
  cases es.find? (Entry.isInterceptor id) with
  | none => rfl
  | some e => exact e.interceptor?_rename f

theorem eraseP_isInterceptor_rename (es : List Entry) (id : String) :
    (es.map (Entry.rename f)).eraseP (Entry.isInterceptor (f id)) =
      (es.eraseP (Entry.isInterceptor id)).map (Entry.rename f) := by
  have hsame : Entry.isInterceptor (f id) ∘ Entry.rename f = Entry.isInterceptor id :=
    funext (Entry.isInterceptor_rename hf id)
  rw [List.eraseP_map, hsame]

theorem take?_rename (id : String) :
    (c.rename f).take? (f id) = (c.take? id).map fun (i, c') => (i.rename f, c'.rename f) := by
  have hhistory := find?_isInterceptor_rename hf c.history id
  have hqueue := find?_isInterceptor_rename hf c.queue id
  have heraseHistory := eraseP_isInterceptor_rename hf c.history id
  have heraseQueue := eraseP_isInterceptor_rename hf c.queue id
  simp only [take?, rename, hhistory, hqueue, heraseHistory, heraseQueue]
  cases (c.history.find? (Entry.isInterceptor id)).bind Entry.interceptor? with
  | some i => rfl
  | none => cases (c.queue.find? (Entry.isInterceptor id)).bind Entry.interceptor? <;> rfl

theorem takePending?_rename :
    (c.rename f).takePending? = c.takePending?.map fun (i, c') => (i.rename f, c'.rename f) := by
  rw [takePending?, takePending?, pending?_rename]
  cases c.pending? with
  | none => rfl
  | some i => exact take?_rename c hf i.id

/-- An answer is taken in the same way if it names its question by the other id. -/
theorem resolve_rename (ch : Choice) (freshId : String) :
    (c.rename f).resolve (ch.rename f) (f freshId) =
      ((c.resolve ch freshId).1.rename f, (c.resolve ch freshId).2.rename f) := by
  have htake : (c.rename f).take? (ch.rename f).interceptorId =
      (c.take? ch.interceptorId).map fun (i, c') => (i.rename f, c'.rename f) :=
    take?_rename c hf ch.interceptorId
  have hunder : ∀ vs written, (ch.rename f).resumeUnder vs written (f freshId) =
      (ch.resumeUnder vs written freshId).rename f := by
    intro vs written
    simp only [Choice.resumeUnder, Choice.rename]
    cases Condition.resolve ch.branches vs (some ch.value) <;> rfl
  have hdefault : (ch.rename f).resumeByDefault = ch.resumeByDefault.rename f := by
    simp only [Choice.resumeByDefault, Choice.rename]
    cases Condition.fallback? ch.branches <;> rfl
  have hvalue : (ch.rename f).value = ch.value := rfl
  simp only [resolve, htake]
  cases c.take? ch.interceptorId with
  | none => rfl
  | some taken =>
      simp only [Option.map_some, hvalue]
      split
      · rw [hdefault]
      · exact Prod.ext (hunder _ _) rfl

end Questions

theorem cut?_rename : (c.rename f).cut? = c.cut? := by
  have hhistory := Cut.ofNewest?_rename f c.history
  simp [cut?, rename, hhistory]

theorem halt_rename (marker : Feedback) :
    (c.rename f).halt { marker with id := f marker.id } = (c.halt marker).rename f := by
  have hcut : (c.cut?.elim (c.history.map (Entry.rename f)) fun cut =>
        cut.apply (c.history.map (Entry.rename f))) =
      (c.cut?.elim c.history fun cut => cut.apply c.history).map (Entry.rename f) := by
    cases c.cut? with
    | none => rfl
    | some cut => exact cut.apply_rename f c.history
  simp only [halt, cut?_rename]
  simp [rename, Entry.rename, hcut]

theorem isDelivering_rename : (c.rename f).isDelivering = c.isDelivering := by
  simp [isDelivering, rename]

theorem stop?_rename (marker : Feedback) :
    (c.rename f).stop? { marker with id := f marker.id } =
      (c.stop? marker).map fun (report, c') =>
        ({ report with feedbackId := f report.feedbackId }, c'.rename f) := by
  simp only [stop?, isDelivering_rename, halt_rename]
  split
  · simp [rename]
  · rfl

theorem filterMap_patch?_rename (g : FlowGraph) (es : List Entry) :
    (es.map (Entry.rename f)).filterMap (Entry.patch? g) =
      (es.filterMap (Entry.patch? g)).map (Entry.rename f) := by
  rw [List.filterMap_map, List.map_filterMap]
  congr 1
  funext e
  exact e.patch?_rename f g

theorem recut_rename (cuts : List Cut) (history : List Entry) :
    recut cuts (history.map (Entry.rename f)) = (recut cuts history).map (Entry.rename f) := by
  induction cuts generalizing history with
  | nil => rfl
  | cons cut rest ih =>
      have hrest := ih (cut.apply history)
      rw [← cut.apply_rename f history] at hrest
      exact hrest

theorem patchedHistory_rename (g : FlowGraph) :
    (c.rename f).patchedHistory g = (c.patchedHistory g).map (Entry.rename f) := by
  simp only [patchedHistory, rename, filterMap_patch?_rename, recut_rename]

theorem patchedVisible_rename (g : FlowGraph) :
    (c.rename f).patchedVisible g = c.patchedVisible g := by
  simp only [patchedVisible, patchedHistory_rename]
  simp [rename, List.flatMap_map]

theorem resync_rename (g : FlowGraph) : (c.rename f).resync g = (c.resync g).rename f := by
  have hqueue : (c.rename f).queue.filterMap (Entry.patch? g) =
      (c.queue.filterMap (Entry.patch? g)).map (Entry.rename f) :=
    filterMap_patch?_rename f g c.queue
  have hasks : ∀ es : List Entry, (es.map (Entry.rename f)).any (fun e => e.interceptor?.isSome) =
      es.any fun e => e.interceptor?.isSome := by
    simp [List.any_map, Function.comp_def]
  simp only [resync, patchedHistory_rename, patchedVisible_rename, hqueue, ← List.map_append, hasks]
  rfl

theorem resyncReport_rename (g : FlowGraph) : (c.rename f).resyncReport g = c.resyncReport g := by
  simp only [resyncReport, rename, ← List.map_append]
  simp [List.filter_map, List.countP_map, Function.comp_def, Entry.patch?_rename]

end Conversation

/-! ### Walks -/

def Traversal.rename (f : String → String) (t : Traversal) : Traversal :=
  { t with entries := t.entries.map (Entry.rename f) }

namespace Walker

variable (f : String → String) (w : Walker)

theorem arrive_rename (input : Option String) (bubbleShown : Bool) (s : Step) :
    { w with interceptorId := f w.interceptorId }.arrive input bubbleShown s =
      ((w.arrive input bubbleShown s).1.map (Entry.rename f),
        (w.arrive input bubbleShown s).2) := by
  cases s with
  | condition step branches =>
      simp only [arrive]
      cases Condition.resolve branches w.store input <;> rfl
  | userTurn => cases bubbleShown <;> rfl
  | _ => rfl

/-- A walk uses the id that it may give to a question for nothing else. -/
theorem walk_rename (cursor : StepId) (handle input : Option String) (bubbleShown : Bool)
    (hops : Nat) :
    { w with interceptorId := f w.interceptorId }.walk cursor handle input bubbleShown hops =
      (w.walk cursor handle input bubbleShown hops).rename f := by
  have hexit : ∀ cursor handle input,
      { w with interceptorId := f w.interceptorId }.exit cursor handle input =
        w.exit cursor handle input := fun _ _ _ => rfl
  fun_induction walk w cursor handle input bubbleShown hops with
  | case1 cursor handle input bubbleShown hops stop he =>
      rw [walk, hexit, he]
      rfl
  | case2 cursor handle input bubbleShown c he =>
      rw [walk, hexit, he]
      rfl
  | case3 cursor handle input bubbleShown c he hops hs =>
      rw [walk, hexit, he]
      simp only [hs]
      rfl
  | case4 cursor handle input bubbleShown c he hops s hs entries stop ha =>
      rw [walk, hexit, he]
      simp only [hs, arrive_rename, ha]
      rfl
  | case5 cursor handle input bubbleShown c he hops s hs entries next ha ih =>
      rw [walk, hexit, he]
      simp only [hs, arrive_rename, ha, ih]
      simp [Traversal.rename, Traversal.after]

theorem rename_walk {f : String → String} {w : Walker} {id : String}
    (h : f w.interceptorId = f id) (cursor : StepId) (handle input : Option String)
    (bubbleShown : Bool) (hops : Nat) :
    ({ w with interceptorId := id }.walk cursor handle input bubbleShown hops).rename f =
      (w.walk cursor handle input bubbleShown hops).rename f := by
  have hrenamed := walk_rename f w cursor handle input bubbleShown hops
  rw [h] at hrenamed
  have hother := walk_rename f { w with interceptorId := id } cursor handle input bubbleShown hops
  exact hother.symm.trans hrenamed

end Walker

end Dialogue
