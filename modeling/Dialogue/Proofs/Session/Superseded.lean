import Dialogue.Proofs.Session.Checked
import Dialogue.Proofs.Session.Soundness

/-! Runs that a later one has taken the place of. The number of the latest run only grows, so a run
once behind it stays behind, and nothing that such a run does from then on has an effect. -/

namespace Dialogue

namespace Session

/-- The latest run at each moment of a course. Numbers are given out only so. -/
def handedOut (s : Session) : List Move → List Run
  | [] => [s.live]
  | m :: rest => s.live :: (s.perform m).session.handedOut rest

/-- A move leaves the latest run the latest, or gives out the next number. A run that it starts has
that number. -/
theorem runs_perform (s : Session) (m : Move) :
    ((s.perform m).session.live = s.live ∨ (s.perform m).session.live = s.live.next) ∧
      ∀ d ∈ (s.perform m).session.runs, d.run ∈ s.runs.map DeliveryRun.run ∨
        (d.run = s.live.next ∧ (s.perform m).session.live = s.live.next) := by
  have hold : ∀ d ∈ s.runs, d.run ∈ s.runs.map DeliveryRun.run := fun d hd =>
    List.mem_map_of_mem hd
  cases m with
  | act a clock =>
      obtain ⟨state, mint, hplan⟩ := s.exists_session_plan a
      obtain ⟨state', hdispatch⟩ :=
        (s.plan a).session.session_dispatch_cases (s.plan a).batch clock
      simp only [perform, Response.session_map, act_eq_carryOut, Plan.carryOut]
      rw [hplan] at hdispatch ⊢
      rcases hdispatch with h | h
      · rw [h]
        exact ⟨.inl rfl, fun d hd => .inl (hold d hd)⟩
      · rw [h]
        refine ⟨.inr rfl, fun d hd => ?_⟩
        rcases List.mem_append.mp hd with hd | hd
        · exact .inl (hold d hd)
        · rw [List.mem_singleton.mp hd]
          exact .inr ⟨rfl, rfl⟩
  | stop now =>
      simp only [perform, Response.session_map]
      rcases s.stop_cases now with ⟨-, h⟩ | ⟨-, h⟩
      · rw [h]
        exact ⟨.inr rfl, fun d hd => .inl (hold d hd)⟩
      · rw [h]
        exact ⟨.inr rfl, fun d hd => .inl (hold d hd)⟩
  | reset => exact ⟨.inr rfl, fun d hd => .inl (hold d hd)⟩
  | setGraph graph => exact ⟨.inl rfl, fun d hd => .inl (hold d hd)⟩
  | setVariable name value => exact ⟨.inl rfl, fun d hd => .inl (hold d hd)⟩
  | proceed run =>
      have hsub := fun pause => (map_run_moveRun_sublist s.runs run pause).subset
      have hkept : ∀ pause, ∀ d ∈ moveRun run pause s.runs, d.run ∈ s.runs.map DeliveryRun.run :=
        fun pause d hd => hsub pause (List.mem_map_of_mem hd)
      simp only [perform]
      rcases s.proceed_cases run with he | ⟨p, rfl, -, he⟩ | ⟨-, he⟩
      · rw [he]
        exact ⟨.inl rfl, fun d hd => .inl (hold d hd)⟩
      · rw [he]
        exact ⟨.inl rfl, fun d hd => .inl (hkept _ d hd)⟩
      · rw [he]
        exact ⟨.inl rfl, fun d hd => .inl (hkept _ d hd)⟩

theorem number_live_le_perform (s : Session) (m : Move) :
    s.live.number ≤ (s.perform m).session.live.number := by
  rcases (s.runs_perform m).1 with h | h
  · exact Nat.le_of_eq (congrArg Run.number h.symm)
  · rw [h]
    exact Nat.le_succ _

theorem number_live_le_after (s : Session) (moves : List Move) :
    s.live.number ≤ (s.after moves).live.number := by
  induction moves generalizing s with
  | nil => exact Nat.le_refl _
  | cons m rest ih => exact Nat.le_trans (s.number_live_le_perform m) (ih _)

theorem number_le_of_mem_handedOut {s : Session} {moves : List Move} {run : Run}
    (h : run ∈ s.handedOut moves) : run.number ≤ (s.after moves).live.number := by
  induction moves generalizing s with
  | nil =>
      obtain rfl := List.mem_singleton.mp h
      exact Nat.le_refl _
  | cons m rest ih =>
      rcases List.mem_cons.mp h with rfl | h
      · exact s.number_live_le_after (m :: rest)
      · exact ih h

/-- Once the latest number has passed that of a run, the run is refused wherever it waits, and its
steps change nothing but that it ends. A run that is started has a number above all that were given
out before. -/
theorem superseded_run_inert (graph : FlowGraph) (config : Config) (mint : Mint) :
    let fresh := ofGraph graph config mint
    (∀ (moves later : List Move) (run : Run),
      run.number < (fresh.after moves).live.number →
        let s := fresh.after (moves ++ later)
        (∀ p, (Task.resumeFrom run s.live p).on s.state = (.error ⟨run, s.live⟩, s.state, [])) ∧
          s.proceedChecked run = s.proceed run ∧
          s.proceed run = ({ s with runs := moveRun run none s.runs }, [])) ∧
      ∀ (moves : List Move) (m : Move),
        let s := fresh.after moves
        ∀ d ∈ (s.perform m).session.runs, d.run ∉ s.runs.map DeliveryRun.run →
          d.run = (s.perform m).session.live ∧
            ∀ earlier ∈ fresh.handedOut moves, earlier.number < d.run.number := by
  intro fresh
  refine ⟨?_, ?_⟩
  · intro moves later run h s
    have hle : (fresh.after moves).live.number ≤ s.live.number := by
      simpa only [s, after_append] using number_live_le_after (fresh.after moves) later
    have hne : run ≠ s.live := by
      rintro rfl
      omega
    exact ⟨fun p => Task.resumeFrom_of_ne hne p s.state, s.proceedChecked_eq run,
      proceed_of_ne hne⟩
  · intro moves m s d hd hnew
    obtain ⟨hrun, hlive⟩ := ((s.runs_perform m).2 d hd).resolve_left hnew
    refine ⟨hrun.trans hlive.symm, fun earlier he => ?_⟩
    have hle := number_le_of_mem_handedOut he
    rw [hrun]
    exact Nat.lt_succ_of_le hle

/-- The first run is given up by a stop and takes no part in the second. -/
theorem superseded_run_inert_welcome :
    let s := (ofGraph welcome (.standard "s") (.ofNonce "n")).after
      [.act .start true, .proceed ⟨1⟩, .stop default, .act .start true]
    s.proceed ⟨1⟩ = ({ s with runs := moveRun ⟨1⟩ none s.runs }, []) := by
  intro s
  have h := (superseded_run_inert welcome (.standard "s") (.ofNonce "n")).1
    [.act .start true, .proceed ⟨1⟩, .stop default] [.act .start true] ⟨1⟩ (by decide +kernel)
  exact h.2.2

end Session

end Dialogue
