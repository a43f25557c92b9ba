import Dialogue.Proofs.Conversation.Rename

/-! What the limit does to a walk. A walk under a lower limit does the same as one under a higher,
for as long as it goes on; so it comes to a beginning of what the other comes to, and to the same if
the limit is not why it ends. -/

namespace Dialogue

namespace Traversal

/-- Whether the first result is what is left of the second if the walk has to end early, and all of
it if the walk ends by itself. -/
structure IsCutOf (t t' : Traversal) : Prop where
  entries : t.entries <+: t'.entries
  hops : t.hops ≤ t'.hops
  whole : t.stop ≠ .hopLimit → t = t'

namespace IsCutOf

variable {t t' : Traversal}

theorem refl (t : Traversal) : t.IsCutOf t :=
  ⟨List.prefix_refl _, Nat.le_refl _, fun _ => rfl⟩

theorem of_nothing (cursor : StepId) (t : Traversal) : IsCutOf ⟨[], cursor, .hopLimit, 0⟩ t :=
  ⟨List.nil_prefix, Nat.zero_le _, fun hstop => absurd rfl hstop⟩

theorem after (h : t.IsCutOf t') (entries : List Entry) :
    (t.after entries).IsCutOf (t'.after entries) where
  entries := (List.prefix_append_right_inj entries).mpr h.entries
  hops := Nat.succ_le_succ h.hops
  whole hstop := congrArg (Traversal.after entries) (h.whole hstop)

theorem rename (h : t.IsCutOf t') (f : String → String) : (t.rename f).IsCutOf (t'.rename f) where
  entries := h.entries.map _
  hops := h.hops
  whole hstop := congrArg (Traversal.rename f) (h.whole hstop)

end IsCutOf

end Traversal

namespace Walker

variable {w : Walker} {cursor : StepId} {handle input : Option String} {bubbleShown : Bool}
  {c : Connection}

theorem walk_succ_of_ok {s : Step} {entries : List Entry} {next : Option String}
    (hexit : w.exit cursor handle input = .ok c) (hs : w.graph.step? c.target = some s)
    (ha : w.arrive input bubbleShown s = (entries, .ok next)) (hops : Nat) :
    w.walk cursor handle input bubbleShown (hops + 1) =
      (w.walk s.id next none false hops).after entries := by
  rw [walk, hexit]
  simp only [hs, ha]

theorem hops_walk_succ_pos (hexit : w.exit cursor handle input = .ok c) (hops : Nat) :
    0 < (w.walk cursor handle input bubbleShown (hops + 1)).hops := by
  rw [walk, hexit]
  simp only
  split
  · exact Nat.one_pos
  · split
    · exact Nat.one_pos
    · exact Nat.succ_pos _

/-- A walk goes no further for being allowed more hops than it takes. -/
theorem walk_of_hops_le {hops most : Nat}
    (h : (w.walk cursor handle input bubbleShown most).hops ≤ hops) (hmost : hops ≤ most) :
    w.walk cursor handle input bubbleShown hops = w.walk cursor handle input bubbleShown most := by
  induction most generalizing cursor handle input bubbleShown hops with
  | zero => rw [Nat.le_zero.mp hmost]
  | succ most ih =>
      cases hexit : w.exit cursor handle input with
      | error stop => rw [walk, walk, hexit]
      | ok c =>
          obtain _ | hops := hops
          · exact absurd h (Nat.not_le.mpr (hops_walk_succ_pos hexit most))
          · cases hs : w.graph.step? c.target with
            | none => simp only [walk, hexit, hs]
            | some s =>
                rcases ha : w.arrive input bubbleShown s with ⟨entries, stop | next⟩
                · simp only [walk, hexit, hs, ha]
                · rw [walk_succ_of_ok hexit hs ha] at h
                  rw [walk_succ_of_ok hexit hs ha, walk_succ_of_ok hexit hs ha,
                    ih (Nat.le_of_succ_le_succ h) (Nat.le_of_succ_le_succ hmost)]

/-- A walk under a lower limit is cut from the walk under a higher. -/
theorem walk_isCutOf (w : Walker) (cursor : StepId) (handle input : Option String)
    (bubbleShown : Bool) {fewer more : Nat} (h : fewer ≤ more) :
    (w.walk cursor handle input bubbleShown fewer).IsCutOf
      (w.walk cursor handle input bubbleShown more) := by
  fun_induction walk w cursor handle input bubbleShown fewer generalizing more with
  | case1 fewer cursor handle input bubbleShown stop hexit =>
      rw [walk, hexit]
      exact .refl _
  | case2 cursor handle input bubbleShown c hexit => exact .of_nothing cursor _
  | case3 cursor handle input bubbleShown c hexit fewer hs =>
      obtain ⟨more, rfl⟩ := Nat.exists_eq_add_of_le' (Nat.zero_lt_of_lt h)
      rw [walk, hexit]
      simp only [hs]
      exact .refl _
  | case4 cursor handle input bubbleShown c hexit fewer s hs entries stop ha =>
      obtain ⟨more, rfl⟩ := Nat.exists_eq_add_of_le' (Nat.zero_lt_of_lt h)
      rw [walk, hexit]
      simp only [hs, ha]
      exact .refl _
  | case5 cursor handle input bubbleShown c hexit fewer s hs entries next ha ih =>
      obtain ⟨more, rfl⟩ := Nat.exists_eq_add_of_le' (Nat.zero_lt_of_lt h)
      rw [walk_succ_of_ok hexit hs ha]
      exact (ih (Nat.le_of_succ_le_succ h)).after entries

/-- Of two walks that answer a request under different limits, the one under the lower limit comes
to a beginning of what the other comes to, in no more hops, and to all of it unless the limit ends
it; but for the ids that their questions may get. -/
theorem traverse_isCutOf (w : Walker) (limits limits' : TraversalLimits) (r : TraversalRequest)
    (h : limits.maxHops ≤ limits'.maxHops) {f : String → String} (id id' : String)
    (hids : f id = f id') :
    (({ w with interceptorId := id }.traverse limits r).rename f).IsCutOf
      (({ w with interceptorId := id' }.traverse limits' r).rename f) := by
  let w' : Walker := { w with interceptorId := id' }
  have hrenamed := rename_walk (w := w') hids.symm r.origin r.handle r.input r.bubbleShown
    limits.maxHops
  have hcut := w'.walk_isCutOf r.origin r.handle r.input r.bubbleShown h
  rw [traverse, hrenamed]
  exact hcut.rename f

end Walker

def rallyFlow : Flow where
  steps := [.start "start", .turn "ping" [.message "m" "Ping"], .turn "pong" [.message "m" "Pong"]]
  connections := [.between "start" "ping", .between "ping" "pong", .between "pong" "ping"]

def rally : FlowGraph := ⟨rallyFlow, by decide +kernel, _, rfl, _, rfl⟩

/-- Three hops of the rally are the first of twenty. -/
theorem Walker.traverse_isCutOf_rally :
    let w : Walker := ⟨rally, .empty, .standard, "asked"⟩
    let short := { w with interceptorId := "short" }.traverse ⟨3⟩ { origin := "start" }
    let long := { w with interceptorId := "long" }.traverse .standard { origin := "start" }
    let anonymous : String → String := fun _ => ""
    short.entries.map Entry.id = ["ping", "pong", "ping"] ∧ long.hops = 20 ∧
      (short.rename anonymous).IsCutOf (long.rename anonymous) := by
  intro w short long anonymous
  have hcut := w.traverse_isCutOf ⟨3⟩ .standard { origin := "start" }
    (by decide) (f := anonymous) "short" "long" rfl
  exact ⟨by decide +kernel, by decide +kernel, hcut⟩

end Dialogue
