import Dialogue.Proofs.Conversation.Resync
import Dialogue.Proofs.Session.Stride

/-! Where the turn in delivery is. It is the last entry of history once its run has committed it,
and the pause of the run tells to which of its components the run has come, and how much of its text
is shown. An edit of the flow in the middle of the turn is left aside. -/

namespace Dialogue

namespace Pause

/-- Whether the turn in delivery is in history already. -/
def isInTurn : Pause → Bool
  | unstarted | beforeTurn .. => false
  | _ => true

theorem isInTurn_of_isWriting {p : Pause} (h : p.isWriting = true) : p.isInTurn = true := by
  cases p with
  | beforeCharacter d ch chars rest => rfl
  | _ => cases h

end Pause

namespace Conversation

def IsDistinct (c : Conversation) (p : Option Pause) : Prop :=
  ∀ s, .step s ∈ c.coming p → s.IsDistinct

theorem IsDistinct.stride {c c' : Conversation} {p : Pause} {p' : Option Pause}
    (h : c.IsDistinct (some p)) (hs : Stride c p c' p') : c'.IsDistinct p' :=
  fun s hmem => h s (hs.coming_subset hmem)

theorem IsDistinct.shift {early : Bool} {g : FlowGraph} (hg : g.IsDistinct) {c c' : Conversation}
    {p p' : Option Pause} (h : c.IsDistinct p) (hs : Shift early (Entry.ComesFrom g) c p c' p') :
    c'.IsDistinct p' := by
  intro s hmem
  rcases hs.step_mem_coming hmem with hmem | hfound
  · exact h s hmem
  · exact hg.step hfound

theorem isDistinct_none {c : Conversation} (h : c.queue = []) : c.IsDistinct none := by
  intro s hmem
  simp [coming, h] at hmem

/-- The turn in delivery is the last entry of history, and `d` is the component that it has come to,
with `rest` behind. -/
def HasReached (c : Conversation) (d : Component) (rest : List Component) : Prop :=
  ∃ front id before, c.history = front ++ [.step (.turn id (before ++ d :: rest))] ∧
    (Step.turn id (before ++ d :: rest)).IsDistinct

/-- How far the turn in delivery has got, by the pause of its run. -/
def IsAt (c : Conversation) : Pause → Prop
  | .beforeComponent d rest | .beforeReveal d rest => c.HasReached d rest
  | .beforeCharacter d ch chars rest => c.HasReached d rest ∧
    ∃ text, c.streaming = some ⟨d.id, text⟩ ∧ text.toList ++ ch :: chars = d.characters
  | _ => True

/-- What is on its way has distinct components, and the turn in delivery is where its run has it. -/
structure Placed (c : Conversation) (p : Option Pause) : Prop where
  distinct : c.IsDistinct p
  isAt : ∀ q, p = some q → c.IsAt q

theorem HasReached.next {c : Conversation} {d d' : Component} {rest : List Component}
    (h : c.HasReached d (d' :: rest)) : c.HasReached d' rest := by
  obtain ⟨front, id, before, hhistory, hdistinct⟩ := h
  have hcomponents : before ++ d :: d' :: rest = (before ++ [d]) ++ d' :: rest := by simp
  rw [hcomponents] at hhistory hdistinct
  exact ⟨front, id, before ++ [d], hhistory, hdistinct⟩

theorem HasReached.behind {c c' : Conversation} {d : Component} {rest : List Component}
    (h : c.HasReached d rest) (hhistory : c'.history = c.history) : c'.IsAt (.behind rest) := by
  cases rest with
  | nil => trivial
  | cons d' rest =>
      have hnext := h.next
      simp only [Pause.behind, IsAt, HasReached, hhistory] at hnext ⊢
      exact hnext

theorem HasReached.take? {c c' : Conversation} {id : String} {i : Interceptor} {d : Component}
    {rest : List Component} (h : c.HasReached d rest) (ht : c.take? id = some (i, c')) :
    c'.HasReached d rest := by
  obtain ⟨front, step, before, hhistory, hdistinct⟩ := h
  rcases take?_eq_some ht with ⟨⟨e, he, hid⟩, rfl⟩ | ⟨-, rfl⟩
  · have hfront : e ∈ front := by
      rw [hhistory] at he
      rcases List.mem_append.mp he with he | he
      · exact he
      · rw [List.mem_singleton.mp he] at hid
        cases hid
    refine ⟨front.eraseP (Entry.isInterceptor id), step, before, ?_, hdistinct⟩
    simp only [hhistory]
    exact List.eraseP_append_left hid _ hfront
  · exact ⟨front, step, before, hhistory, hdistinct⟩

theorem IsAt.frame {c c' : Conversation} {q : Pause} (h : c.IsAt q)
    (hhistory : c'.history = c.history) (hstreaming : c'.streaming = c.streaming) : c'.IsAt q := by
  cases q with
  | unstarted => trivial
  | beforeTurn id components => trivial
  | _ =>
      simp only [IsAt, HasReached, hhistory, hstreaming] at h ⊢
      exact h

theorem IsAt.take? {c c' : Conversation} {id : String} {i : Interceptor} {q : Pause}
    (h : c.IsAt q) (ht : c.take? id = some (i, c')) : c'.IsAt q := by
  have hstreaming : c'.streaming = c.streaming := by rw [take?_frame ht]
  cases q with
  | unstarted => trivial
  | beforeTurn id components => trivial
  | beforeComponent d rest => exact HasReached.take? h ht
  | beforeReveal d rest => exact HasReached.take? h ht
  | beforeCharacter d ch chars rest =>
      refine ⟨HasReached.take? h.1 ht, ?_⟩
      rw [hstreaming]
      exact h.2

theorem placed_none {c : Conversation} (h : c.queue = []) : c.Placed none := by
  refine ⟨isDistinct_none h, fun q hq => ?_⟩
  cases hq

/-- A run keeps the turn in delivery in its place. -/
theorem Placed.stride {c c' : Conversation} {p : Pause} {p' : Option Pause}
    (h : c.Placed (some p)) (hs : Stride c p c' p') : c'.Placed p' := by
  have hat : c.IsAt p := h.isAt p rfl
  refine ⟨h.distinct.stride hs, fun q hq => ?_⟩
  cases hs with
  | mood phase isThinking =>
      cases hq
      exact hat.frame rfl rfl
  | commit e rest hqueue hturn =>
      cases hq
      trivial
  | take id components rest hqueue =>
      cases hq
      trivial
  | settle hqueue => cases hq
  | openTurn id components =>
      cases hq
      cases components with
      | nil => trivial
      | cons d rest =>
          have hdistinct := h.distinct (.turn id (d :: rest)) List.mem_cons_self
          exact ⟨c.history, id, [], rfl, hdistinct⟩
  | beginText d rest ch chars htext =>
      cases hq
      exact ⟨hat, "", rfl, htext.symm⟩
  | beginWhole d rest htext =>
      cases hq
      exact hat
  | reveal d rest =>
      cases hq
      exact HasReached.behind hat rfl
  | push d ch ch' chars rest =>
      cases hq
      obtain ⟨hreached, text, hstreaming, hshown⟩ := hat
      refine ⟨hreached, text.push ch, ?_, ?_⟩
      · simp [Conversation.push, hstreaming]
      · rw [← hshown]
        simp
  | finish d ch rest =>
      cases hq
      exact HasReached.behind hat.1 rfl

/-- What the user does in turn keeps the turn in delivery in its place. -/
theorem Placed.shift {g : FlowGraph} (hg : g.IsDistinct) {c c' : Conversation}
    {p p' : Option Pause} (h : c.Placed p) (hs : Shift false (Entry.ComesFrom g) c p c' p') :
    c'.Placed p' := by
  refine ⟨h.distinct.shift hg hs, fun q hq => ?_⟩
  cases hs with
  | take id i c' htake => exact (h.isAt q hq).take? htake
  | assign store cursor => exact (h.isAt q hq).frame rfl rfl
  | commitShown e hentry hplace =>
      rcases hplace with he | hp
      · cases he
      · rw [hp] at hq
        cases hq
  | enqueue batch hbatch =>
      cases p with
      | none =>
          cases hq
          trivial
      | some p =>
          cases hq
          exact (h.isAt p rfl).frame rfl rfl

/-- A text on its way is that of a component of the last turn, of which a beginning is shown. -/
theorem Placed.exists_of_streaming {c : Conversation} {p : Pause} {w : Streaming}
    (h : c.Placed (some p)) (hpause : c.AtPause (some p)) (hw : c.streaming = some w) :
    ∃ front id before d rest text,
      c.history = front ++ [.step (.turn id (before ++ d :: rest))] ∧
      (Step.turn id (before ++ d :: rest)).IsDistinct ∧ d.id = w.componentId ∧
      d.streamedText? = some text ∧ w.text.toList <+: text.toList := by
  have hwriting : p.isWriting = true := by simpa [hw] using hpause.streaming.symm
  obtain ⟨d, ch, chars, rest, rfl⟩ : ∃ d ch chars rest, p = .beforeCharacter d ch chars rest := by
    cases p with
    | beforeCharacter d ch chars rest => exact ⟨d, ch, chars, rest, rfl⟩
    | _ => cases hwriting
  obtain ⟨⟨front, id, before, hhistory, hdistinct⟩, shown, hshown, hcharacters⟩ := h.isAt _ rfl
  obtain rfl : w = ⟨d.id, shown⟩ := Option.some.inj (hw.symm.trans hshown)
  obtain ⟨text, htext⟩ : ∃ text, d.streamedText? = some text := by
    cases ht : d.streamedText? with
    | some text => exact ⟨text, rfl⟩
    | none => simp [Component.characters, ht] at hcharacters
  refine ⟨front, id, before, d, rest, text, hhistory, hdistinct, rfl, htext, ch :: chars, ?_⟩
  rw [hcharacters]
  simp [Component.characters, htext]

section

variable {c : Conversation} {w : Streaming} {front : List Entry} {st : Step} {d : Component}
  (hw : c.streaming = some w) (hhistory : c.history = front ++ [.step st]) (hst : st.IsDistinct)
  (hd : d ∈ st.components) (hid : d.id = w.componentId)

include hw hhistory hst hd hid

/-- The cut that a stop makes of a text of the last turn. -/
theorem cut?_of_streaming :
    c.cut? = some ⟨w.componentId, Entry.copiesIn w.componentId front, w.text⟩ := by
  rw [cut?, hw, Option.bind_some, hhistory, ← hid]
  exact Cut.ofNewest?_append hst hd front w.text

theorem history_cut?_of_streaming :
    (c.cut?.elim c.history fun cut => cut.apply c.history) =
      front ++ [(Entry.step st).cut w.componentId w.text 0] := by
  have hcopies := Entry.copies_of_isDistinct hst hd
  rw [hid] at hcopies
  rw [cut?_of_streaming hw hhistory hst hd hid, Option.elim, hhistory, Cut.apply,
    Cut.inEntries_append w.componentId w.text front [] (by omega)]

end

end Conversation

namespace Session

structure IsDistinct (s : Session) : Prop where
  graph : s.graph.IsDistinct
  coming : s.state.IsDistinct s.pause?

theorem isDistinct_ofGraph {graph : FlowGraph} (h : graph.IsDistinct) (config : Config)
    (mint : Mint) : (ofGraph graph config mint).IsDistinct :=
  ⟨h, Conversation.isDistinct_none rfl⟩

theorem IsDistinct.perform {s : Session} (h : s.IsDistinct) (hs : s.Sound) {m : Move}
    (hm : ∀ graph, m = .setGraph graph → graph.IsDistinct) : (s.perform m).session.IsDistinct := by
  by_cases hedit : ∃ graph, m = .setGraph graph
  · obtain ⟨graph, rfl⟩ := hedit
    refine ⟨hm graph rfl, fun st hmem => ?_⟩
    rcases List.mem_append.mp hmem with hmem | hmem
    · exact h.coming st (List.mem_append_left _ hmem)
    · obtain ⟨e, -, he⟩ := List.mem_filterMap.mp hmem
      obtain ⟨-, -, -, hfound⟩ := Entry.step?_of_patch? he
      exact (hm graph rfl).step hfound
  · have hedit := not_exists.mp hedit
    refine ⟨s.graph_perform hedit ▸ h.graph, ?_⟩
    exact hs.move_induction (I := Conversation.IsDistinct)
      (fun hc => hc.shift h.graph) hedit (.inl rfl) (fun a _ _ => s.comesFrom_of_mem_plan a)
      (fun hc => hc.stride) (fun _ _ _ => Conversation.isDistinct_none rfl)
      (fun _ => Conversation.isDistinct_none rfl) h.coming

/-- What is on its way has distinct components, if all flows have that the session ever had. -/
theorem IsDistinct.after {s : Session} (h : s.IsDistinct) (hs : s.Sound) {moves : List Move}
    (hgraphs : ∀ graph, .setGraph graph ∈ moves → graph.IsDistinct) :
    (s.after moves).IsDistinct := by
  refine course_induction moves h fun earlier m later hmoves hearlier => ?_
  refine hearlier.perform (hs.after earlier) fun graph hm => hgraphs graph ?_
  rw [hmoves, ← hm]
  exact List.mem_append_cons_self

/-- While no turn is under way, there is nothing that could be out of place. -/
theorem IsDistinct.placed {s : Session} (h : s.IsDistinct)
    (hp : s.pause?.any Pause.isInTurn = false) : s.state.Placed s.pause? := by
  refine ⟨h.coming, fun q hq => ?_⟩
  rw [hq] at hp
  cases q with
  | unstarted | beforeTurn => trivial
  | _ => cases hp

/-- Along moves that come in turn and do not edit the flow the turn in delivery stays in its
place. -/
theorem placed_after {s : Session} (hs : s.Sound) (hgraph : s.graph.IsDistinct) {moves : List Move}
    (hmoves : ∀ graph, .setGraph graph ∉ moves) (hturn : s.Throughout ComesInTurn moves)
    (hplaced : s.state.Placed s.pause?) :
    (s.after moves).state.Placed (s.after moves).pause? := by
  exact (hs.unedited_induction hmoves (.inr hturn) (fun hc => hc.shift hgraph) (fun hc => hc.stride)
    (fun _ _ => Conversation.placed_none rfl) (Conversation.placed_none rfl) hplaced).2

end Session

end Dialogue
