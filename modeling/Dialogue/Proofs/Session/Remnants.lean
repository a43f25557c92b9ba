import Dialogue.Proofs.Conversation.Remnants
import Dialogue.Proofs.Session.Place

/-! A text that a stop has cut stays cut, and no other is. Edits come while nothing is on its way,
and leave each cut in the entry that it is for. -/

namespace Dialogue

namespace Conversation

/-- Whether history has its steps as the flow has them, but for what stops left by `left`, and what
is on its way too. The turn in delivery is whole. -/
structure Kept (g : FlowGraph) (left : List (Option Streaming)) (c : Conversation)
    (p : Option Pause) : Prop where
  placed : c.Placed p
  coming : ∀ s, .step s ∈ c.coming p → g.step? s.id = some s
  remnants : Remnants g (fun _ => 0) c.history left c.cuts
  last : p.any Pause.isInTurn = true → ∃ front, left = front ++ [none]

section

variable {g : FlowGraph} {left : List (Option Streaming)} {c c' : Conversation}

theorem kept_none (hqueue : c.queue = []) (h : Remnants g (fun _ => 0) c.history left c.cuts) :
    c.Kept g left none := by
  refine ⟨placed_none hqueue, fun s hmem => ?_, h, fun hp => Bool.noConfusion hp⟩
  simp [Conversation.coming, hqueue] at hmem

theorem Kept.unnoted {p : Option Pause} (h : c.Kept g left p) :
    ∃ k, c.Kept g (left ++ List.replicate k none) p := by
  refine ⟨0, ?_⟩
  rw [List.replicate_zero, List.append_nil]
  exact h

theorem Kept.exists_add {p : Option Pause} {k : Nat}
    (h : ∃ k', c.Kept g (left ++ List.replicate k none ++ List.replicate k' none) p) :
    ∃ k, c.Kept g (left ++ List.replicate k none) p := by
  obtain ⟨k', h⟩ := h
  refine ⟨k + k', ?_⟩
  rw [List.replicate_add, ← List.append_assoc]
  exact h

/-- A run leaves the turns whole that it brings. -/
theorem Kept.stride {p : Pause} {p' : Option Pause} (h : c.Kept g left (some p))
    (hs : Stride c p c' p') : ∃ k, c'.Kept g (left ++ List.replicate k none) p' := by
  have hplaced := h.placed.stride hs
  have hcoming : ∀ s, .step s ∈ c'.coming p' → g.step? s.id = some s :=
    fun s hmem => h.coming s (hs.coming_subset hmem)
  -- all strides but those that commit leave history as it is
  have hsame : c'.history = c.history → c'.cuts = c.cuts →
      (p'.any Pause.isInTurn = true → p.isInTurn = true) →
        ∃ k, c'.Kept g (left ++ List.replicate k none) p' := by
    intro hhistory hcuts hlast
    refine Kept.unnoted ⟨hplaced, hcoming, ?_, fun hp => h.last (hlast hp)⟩
    rw [hhistory, hcuts]
    exact h.remnants
  cases hs with
  | commit e rest hqueue hturn =>
      obtain ⟨k, hremnants⟩ := h.remnants.concat (e := e) fun s he =>
        h.coming s (List.mem_append_right _ (by rw [hqueue, he]; exact List.mem_cons_self))
      exact ⟨k, hplaced, hcoming, hremnants, nofun⟩
  | openTurn id components =>
      have hnow := h.coming (.turn id components) List.mem_cons_self
      have hremnants := h.remnants.append (.whole _ hnow (.nil _))
      rw [List.append_nil] at hremnants
      exact ⟨1, hplaced, hcoming, hremnants, fun _ => ⟨left, rfl⟩⟩
  | mood phase isThinking => exact hsame rfl rfl id
  | take id components rest hqueue => exact hsame rfl rfl nofun
  | settle hqueue => exact hsame rfl rfl nofun
  | _ => exact hsame rfl rfl fun _ => rfl

theorem Kept.shift (hg : g.IsDistinct) {p p' : Option Pause} (h : c.Kept g left p)
    (hs : Shift false (Entry.ComesFrom g) c p c' p') :
    ∃ k, c'.Kept g (left ++ List.replicate k none) p' := by
  have hplaced := h.placed.shift hg hs
  have hcoming : ∀ s, .step s ∈ c'.coming p' → g.step? s.id = some s := by
    intro s hmem
    rcases hs.step_mem_coming hmem with hmem | hfound
    · exact h.coming s hmem
    · exact hfound
  cases hs with
  | take id i c' htake =>
      refine Kept.unnoted ⟨hplaced, hcoming, ?_, h.last⟩
      rcases take?_eq_some htake with ⟨-, rfl⟩ | ⟨-, rfl⟩
      · exact h.remnants.eraseP id
      · exact h.remnants
  | assign store cursor => exact Kept.unnoted ⟨hplaced, hcoming, h.remnants, h.last⟩
  | commitShown e hentry hplace =>
      obtain rfl : p = none := hplace.resolve_left nofun
      obtain ⟨k, hremnants⟩ := h.remnants.concat (e := e) fun s he => by
        rw [he] at hentry
        exact hentry.step?_eq_some
      exact ⟨k, hplaced, hcoming, hremnants, nofun⟩
  | enqueue batch hbatch =>
      refine Kept.unnoted ⟨hplaced, hcoming, h.remnants, fun hp => ?_⟩
      cases p with
      | none => cases hp
      | some p => exact h.last hp

/-- A stop notes what it leaves of the text on its way, which is one of the last turn. -/
theorem Kept.halt {p : Pause} (h : c.Kept g left (some p)) (hpause : c.AtPause (some p))
    (marker : Feedback) :
    (c.halt marker).Kept g (c.streaming.elim left fun w => left.dropLast ++ [some w]) none := by
  have hnote : (Entry.feedback marker).step? = none := rfl
  refine kept_none rfl ?_
  cases hw : c.streaming with
  | none =>
      have hcut : c.cut? = none := by rw [cut?, hw, Option.bind_none]
      simpa [Conversation.halt, hcut] using h.remnants.append (.other _ hnote (.nil _))
  | some w =>
      obtain ⟨front, id, before, d, rest, -, hhistory, hdistinct, hid, -, -⟩ :=
        h.placed.exists_of_streaming hpause hw
      have hd : d ∈ (Step.turn id (before ++ d :: rest)).components := by simp [Step.components]
      have hcopies := Entry.copies_of_isDistinct hdistinct hd
      rw [hid] at hcopies
      -- the turn is committed by now, and has the last note, which says that it is whole
      have hwriting : p.isWriting = true := by simpa [hw] using hpause.streaming.symm
      obtain ⟨notes, rfl⟩ := h.last (Pause.isInTurn_of_isWriting hwriting)
      have hremnants := h.remnants
      rw [hhistory] at hremnants
      have hshort := (hremnants.shorten (w := w) (by omega)).append (.other _ hnote (.nil _))
      have hmade : (c.halt marker).history =
          front ++ [.step ((Step.turn id (before ++ d :: rest)).shortened w)] ++
            [.feedback marker] :=
        congrArg (fun es => es ++ [Entry.feedback marker])
          (history_cut?_of_streaming hw hhistory hdistinct hd hid)
      rw [hmade]
      simpa [Conversation.halt, cut?_of_streaming hw hhistory hdistinct hd hid] using hshort

/-- Where nothing is on its way, an edit that leaves each cut in its entry makes each of them again,
and no others. -/
theorem Kept.resync {g' : FlowGraph} (hg : g'.IsDistinct) (h : c.Kept g left none)
    (hqueue : c.queue = []) (hsteady : ∀ cut ∈ c.cuts, cut.IsSteady g' c.history) :
    (c.resync g').Kept g' (survivors g' (Entry.steps c.history) left) none := by
  obtain ⟨es, hrecut, hremnants⟩ := h.remnants.recut hg [] fun cut hcut =>
    ⟨Nat.zero_le _, hsteady cut hcut⟩
  have hhistory : (c.resync g').history = es := hrecut
  refine kept_none (by simp [Conversation.resync, hqueue]) ?_
  rw [hhistory]
  exact hremnants

end

end Conversation

namespace Session

/-- Notes for each step entry of history what a stop left of one of its texts, if one did. That is a
text of the last one, when the stop comes; an edit drops the notes on the steps that it drops. -/
def leftByStops (s : Session) (left : List (Option Streaming)) : Move → List (Option Streaming)
  | .stop _ => s.state.streaming.elim left fun w => left.dropLast ++ [some w]
  | .reset => []
  | .setGraph g => survivors g (Entry.steps s.state.history) left
  | m =>
    let more := (Entry.steps (s.perform m).session.state.history).length - left.length
    left ++ List.replicate more none

/-- Whether a move, if it is an edit, comes while nothing is on its way, and leaves each cut in the
entry that it is for. -/
def EditsSteadily (s : Session) : Move → Prop
  | .setGraph g =>
    s.state.isActive = false ∧ ∀ cut ∈ s.state.cuts, cut.IsSteady g s.state.history
  | _ => True

instance (s : Session) : (m : Move) → Decidable (s.EditsSteadily m)
  | .setGraph _ => inferInstanceAs (Decidable (_ ∧ _))
  | .act .. | .stop _ | .reset | .setVariable .. | .proceed _ => .isTrue trivial

theorem Sound.kept_perform {s : Session} (hs : s.Sound) {left : List (Option Streaming)} {m : Move}
    (hgraph : s.graph.IsDistinct) (hm : ∀ g, m = .setGraph g → g.IsDistinct)
    (hturn : s.ComesInTurn m) (hsteady : s.EditsSteadily m)
    (h : s.state.Kept s.graph left s.pause?) :
    (s.perform m).session.state.Kept (s.perform m).session.graph (s.leftByStops left m)
      (s.perform m).session.pause? := by
  -- acts and runs bring whole steps only, so there are as many more notes as steps in history
  have honward : m.isOnward = true →
      (s.perform m).session.state.Kept (s.perform m).session.graph
        (left ++ List.replicate
          ((Entry.steps (s.perform m).session.state.history).length - left.length) none)
        (s.perform m).session.pause? := by
    intro hon
    obtain ⟨k, hk⟩ := hs.perform_induction
      (I := fun c p => ∃ k, c.Kept s.graph (left ++ List.replicate k none) p)
      (fun ⟨_, hc⟩ hshift => Conversation.Kept.exists_add (hc.shift hgraph hshift)) hon
      (.inr hturn) (fun a _ _ => s.comesFrom_of_mem_plan a)
      (fun ⟨_, hc⟩ hstride => Conversation.Kept.exists_add (hc.stride hstride)) h.unnoted
    have hlength := hk.remnants.length_eq
    rw [List.length_append, List.length_replicate] at hlength
    rw [s.graph_perform (Move.ne_setGraph_of_isOnward hon), hlength, Nat.add_sub_cancel_left]
    exact hk
  cases m with
  | stop now =>
      simp only [perform, Response.session_map, hs.pause?_stop]
      have hsame : (s.stop now).session.graph = s.graph :=
        s.graph_perform (m := .stop now) fun _ he => Move.noConfusion he
      rw [hsame]
      rcases hs.state_stop_cases now with ⟨ha, -, he⟩ | ⟨ha, -, he⟩
      · have hpause := hs.atPause
        rw [hs.pause?_of_not_active ha] at h hpause
        rw [he, leftByStops, hpause.streaming_eq_none rfl]
        exact h
      · obtain ⟨p, hp⟩ := hs.pause?_of_active ha
        have hpause := hs.atPause
        rw [hp] at h hpause
        rw [he]
        exact h.halt hpause _
  | reset =>
      simp only [perform, Response.session_map, hs.pause?_reset]
      exact Conversation.kept_none rfl (.nil _)
  | setGraph g =>
      obtain ⟨hactive, hsteady⟩ := hsteady
      have hp := hs.pause?_of_not_active hactive
      have hp' : (s.perform (.setGraph g)).session.pause? = none := hp
      rw [hp] at h
      rw [hp']
      exact h.resync (hm g rfl) (hs.atPause.queue hp) hsteady
  | act a clock => exact honward rfl
  | setVariable name value => exact honward rfl
  | proceed run => exact honward rfl

/-- Each step entry of history is what the flow has of its step, but for the text that was on its
way when a stop came, of which is left what was shown. This asks of edits that they come while
nothing is on its way and leave each cut in the entry that it is for, and of acts that they come in
turn. -/
theorem cut_texts_stay (graph : FlowGraph) (config : Config) (mint : Mint)
    (moves : List Move) (hgraph : graph.IsDistinct)
    (hgraphs : ∀ g, .setGraph g ∈ moves → g.IsDistinct)
    (hturn : (ofGraph graph config mint).Throughout ComesInTurn moves)
    (hedits : (ofGraph graph config mint).Throughout EditsSteadily moves) :
    let fresh := ofGraph graph config mint
    let s := fresh.after moves
    List.Forall₂ (fun st left => ∃ now, s.graph.step? st.id = some now ∧ st = now.leftAs left)
      (Entry.steps s.state.history) (fresh.tracked leftByStops [] moves) := by
  intro fresh s
  have hfresh : fresh.Sound := sound_ofGraph graph config mint
  have hkept : s.graph.IsDistinct ∧
      s.state.Kept s.graph (fresh.tracked leftByStops [] moves) s.pause? := by
    refine tracked_induction
      (P := fun t left => t.graph.IsDistinct ∧ t.state.Kept t.graph left t.pause?) moves
      ⟨hgraph, Conversation.kept_none rfl (.nil _)⟩ ?_
    intro earlier m later hsplit ⟨hdistinct, hearlier⟩
    have hm : ∀ g, m = .setGraph g → g.IsDistinct := by
      rintro g rfl
      exact hgraphs g (hsplit ▸ List.mem_append_cons_self)
    rw [hsplit] at hturn hedits
    refine ⟨?_, (hfresh.after earlier).kept_perform hdistinct hm hturn.at_move hedits.at_move
      hearlier⟩
    by_cases hedit : ∃ g, m = .setGraph g
    · obtain ⟨g, rfl⟩ := hedit
      exact hm g rfl
    · rw [graph_perform _ (not_exists.mp hedit)]
      exact hdistinct
  exact hkept.2.remnants.leftAs

end Session

def warmedAfterStop : List Move :=
  [.act .start true, .proceed ⟨1⟩, .proceed ⟨1⟩, .proceed ⟨1⟩, .stop default,
    .setGraph warmWelcome]

namespace Session

/-- The first letter is left of the greeting, where the flow has a warmer one. -/
theorem cut_texts_stay_welcome :
    let s := (ofGraph welcome (.standard "s") (.ofNonce "n")).after warmedAfterStop
    ∃ now, s.graph.step? "hello" = some now ∧
      .turn "hello" [.message "h" "H"] = now.leftAs (some ⟨"h", "H"⟩) := by
  have hgraphs : ∀ g, .setGraph g ∈ warmedAfterStop → g.IsDistinct := by
    intro g hg
    obtain rfl : g = warmWelcome := by simpa [warmedAfterStop] using hg
    decide
  have h := cut_texts_stay welcome (.standard "s") (.ofNonce "n") warmedAfterStop
    (by decide) hgraphs (by decide +kernel) (by decide +kernel)
  have hleft : (ofGraph welcome (.standard "s") (.ofNonce "n")).tracked leftByStops []
      warmedAfterStop = [some ⟨"h", "H"⟩] := by
    decide +kernel
  have hsteps : Entry.steps ((ofGraph welcome (.standard "s") (.ofNonce "n")).after
      warmedAfterStop).state.history = [.turn "hello" [.message "h" "H"]] := by
    decide +kernel
  dsimp only at h
  rw [hleft, hsteps] at h
  cases h with
  | cons hgreeting _ => exact hgreeting

end Session

/-- Two greetings that show one component. -/
def twoGreetingsFlow : Flow where
  steps := [.start "start", .turn "a" [.message "m" "Hi"], .turn "b" [.message "m" "Hello"]]
  connections := [.between "start" "a", .between "a" "b"]

def twoGreetings : FlowGraph := ⟨twoGreetingsFlow, by decide +kernel, _, rfl, _, rfl⟩

def oneGreetingFlow : Flow where
  steps := [.start "start", .turn "b" [.message "m" "Hello"]]
  connections := [.between "start" "b"]

def oneGreeting : FlowGraph := ⟨oneGreetingFlow, by decide +kernel, _, rfl, _, rfl⟩

namespace Session

/-- An edit that is not steady can bring back what a stop has cut: the cut is remembered as one of
the second copy, and without the first greeting there is but one. -/
theorem cut_greeting_comes_back :
    let s := (ofGraph twoGreetings (.standard "s") (.ofNonce "n")).after
      (.act .start true :: List.replicate 8 (.proceed ⟨1⟩) ++ [.stop default])
    twoGreetings.IsDistinct ∧ oneGreeting.IsDistinct ∧ s.state.isActive = false ∧
      Entry.steps s.state.history =
        [.turn "a" [.message "m" "Hi"], .turn "b" [.message "m" "Hel"]] ∧
      Entry.steps (s.perform (.setGraph oneGreeting)).session.state.history =
        [.turn "b" [.message "m" "Hello"]] := by
  decide +kernel

end Session

end Dialogue
