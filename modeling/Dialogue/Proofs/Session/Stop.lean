import Dialogue.Proofs.Session.Place

/-! A stop keeps what was shown. The turn in delivery is the last entry of history, and what is
shown of a text on its way is a beginning of it; so a stop cuts just this text, and nothing else of
history. -/

namespace Dialogue

namespace Conversation

/-- What a stop leaves of a history. A text on its way is cut to what is shown of it, in the turn at
the end; the rest stays. -/
inductive StopKeeps : Option Streaming → List Entry → List Entry → Prop where
  | whole (history : List Entry) : StopKeeps none history history
  | cut (w : Streaming) (front : List Entry) (id : StepId) (before : List Component)
      (d : Component) (after : List Component) (text : String) (hid : d.id = w.componentId)
      (hothers : ∀ c ∈ before ++ after, c.id ≠ w.componentId)
      (htext : d.streamedText? = some text) (hshown : w.text.toList <+: text.toList) :
      StopKeeps (some w) (front ++ [.step (.turn id (before ++ d :: after))])
        (front ++ [.step (.turn id (before ++ d.withStreamedText w.text :: after))])

theorem Placed.stopKeeps {c : Conversation} {p : Pause} (h : c.Placed (some p))
    (hpause : c.AtPause (some p)) :
    StopKeeps c.streaming c.history (c.cut?.elim c.history fun cut => cut.apply c.history) := by
  cases hw : c.streaming with
  | none =>
      simp only [cut?, hw, Option.bind_none, Option.elim]
      exact .whole c.history
  | some w =>
      obtain ⟨front, id, before, d, rest, text, hhistory, hdistinct, hid, htext, hshown⟩ :=
        h.exists_of_streaming hpause hw
      have hothers : ∀ e ∈ before ++ rest, e.id ≠ w.componentId := by
        rw [← hid]
        simp only [Step.IsDistinct, Step.components, List.map_append, List.map_cons,
          List.nodup_append, List.nodup_cons] at hdistinct
        obtain ⟨-, ⟨hrest, -⟩, hbefore⟩ := hdistinct
        intro e he
        rcases List.mem_append.mp he with he | he
        · exact hbefore _ (List.mem_map_of_mem he) _ List.mem_cons_self
        · exact fun hid => hrest (hid ▸ List.mem_map_of_mem he)
      have hd : d ∈ (Step.turn id (before ++ d :: rest)).components := by simp [Step.components]
      have hcomponents := Cut.inComponents_append w.text before rest
        (fun e he => hothers e (List.mem_append_left _ he)) hid
      rw [history_cut?_of_streaming hw hhistory hdistinct hd hid, Entry.cut, Step.components,
        hcomponents, hhistory]
      exact .cut w front id before d rest text hid hothers htext hshown

end Conversation

namespace Session

/-- A stop that finds nothing on its way changes nothing. Any other gives up what is on its way and
keeps history as it is shown: it appends the note that the response was stopped, and where a text is
on its way it cuts this text in the last turn, to the beginning of it that is shown. The flow may be
edited until the turn in delivery is taken out of the queue, which is in `later` then; and none of
the acts since may have been without a clock at hand, while something is delivered. -/
theorem stop_keeps_shown (graph : FlowGraph) (config : Config) (mint : Mint)
    (earlier later : List Move) (now : Timestamp) (hgraph : graph.IsDistinct)
    (hgraphs : ∀ g, .setGraph g ∈ earlier → g.IsDistinct) (hlater : ∀ g, .setGraph g ∉ later)
    (hturn : ((ofGraph graph config mint).after earlier).Throughout ComesInTurn later)
    (hstart : ((ofGraph graph config mint).after earlier).pause?.any Pause.isInTurn = false) :
    let s := (ofGraph graph config mint).after (earlier ++ later)
    (s.state.isActive = false →
        (s.stop now).result = false ∧ (s.stop now).session.state = s.state) ∧
      (s.state.isActive = true → (s.stop now).result = true ∧
        ∃ kept marker, Conversation.StopKeeps s.state.streaming s.state.history kept ∧
          marker.text = Conversation.stoppedText ∧ marker.time = now ∧
          (s.stop now).session.state = { s.state with
            history := kept ++ [.feedback marker]
            queue := []
            streaming := none
            isThinking := false
            isActive := false
            phase := .stopped
            cuts := s.state.cuts ++ s.state.cut?.toList }) := by
  intro s
  let first := ofGraph graph config mint
  have hfirst : first.Sound := sound_ofGraph graph config mint
  have hdistinct : (first.after earlier).IsDistinct :=
    (isDistinct_ofGraph hgraph config mint).after hfirst hgraphs
  have hearlier : (first.after earlier).state.Placed (first.after earlier).pause? :=
    hdistinct.placed hstart
  have hs : s.Sound := hfirst.after (earlier ++ later)
  have hplaced : s.state.Placed s.pause? := by
    have hlater := placed_after (hfirst.after earlier) hdistinct.graph hlater hturn hearlier
    rwa [← after_append] at hlater
  rcases hs.state_stop_cases now with ⟨ha, hresult, hstate⟩ | ⟨ha, hresult, hstate⟩
  · refine ⟨fun _ => ⟨hresult, hstate⟩, fun hactive => ?_⟩
    rw [ha] at hactive
    cases hactive
  · refine ⟨fun hactive => ?_, fun _ => ⟨hresult, _, _, ?_, rfl, rfl, hstate⟩⟩
    · rw [ha] at hactive
      cases hactive
    · obtain ⟨p, hp⟩ := hs.pause?_of_active ha
      have hpause := hs.atPause
      rw [hp] at hplaced hpause
      exact hplaced.stopKeeps hpause

/-- A stop in the middle of the greeting keeps its first letter. -/
theorem stop_keeps_shown_welcome :
    let s := (ofGraph welcome (.standard "s") (.ofNonce "n")).after
      ([.act .start true] ++ [.proceed ⟨1⟩, .proceed ⟨1⟩, .proceed ⟨1⟩])
    ∃ kept marker, Conversation.StopKeeps (some ⟨"h", "H"⟩)
        [.step (.turn "hello" [.message "h" "Hi"])] kept ∧
      (s.stop default).session.state.history = kept ++ [.feedback marker] := by
  intro s
  have h := (stop_keeps_shown welcome (.standard "s") (.ofNonce "n") [.act .start true]
    [.proceed ⟨1⟩, .proceed ⟨1⟩, .proceed ⟨1⟩] default (by decide) (by simp) (by simp)
    (by decide +kernel) (by decide +kernel)).2 (by decide +kernel)
  obtain ⟨-, kept, marker, hkept, -, -, hstate⟩ := h
  have hstreaming : s.state.streaming = some ⟨"h", "H"⟩ := by decide +kernel
  have hhistory : s.state.history = [.step (.turn "hello" [.message "h" "Hi"])] := by decide +kernel
  rw [hstreaming, hhistory] at hkept
  exact ⟨kept, marker, hkept, congrArg Conversation.history hstate⟩

end Session

/-- A greeting, and on request a farewell that shows the same component. -/
def partingFlow : Flow where
  steps := [.start "start", .turn "a" [.message "m" "Hi"], .turn "b" [.message "m" "Bye"]]
  connections := [.between "start" "a", ⟨"a", "b", some "bye"⟩]

def parting : FlowGraph := ⟨partingFlow, by decide +kernel, _, rfl, _, rfl⟩

namespace Session

/-- A click without a clock at hand, in the midst of the greeting, puts the farewell behind it at
once; a stop then leaves of the farewell what was shown of the greeting. -/
theorem stop_cuts_early_farewell :
    let s := (ofGraph parting (.standard "s") (.ofNonce "n")).after
      [.act .start true, .proceed ⟨1⟩, .proceed ⟨1⟩, .proceed ⟨1⟩,
        .act (.click "a" (some "bye") "Bye") false]
    parting.IsDistinct ∧ s.state.isActive = true ∧ s.state.streaming = some ⟨"m", "H"⟩ ∧
      s.state.history = [.step (.turn "a" [.message "m" "Hi"]), .userMessage ⟨"user-n-1", "Bye"⟩,
        .step (.turn "b" [.message "m" "Bye"])] ∧
      (s.stop default).session.state.history.take 3 =
        [.step (.turn "a" [.message "m" "Hi"]), .userMessage ⟨"user-n-1", "Bye"⟩,
          .step (.turn "b" [.message "m" "H"])] ∧
      ¬ "H".toList <+: "Bye".toList := by
  decide +kernel

end Session

end Dialogue
