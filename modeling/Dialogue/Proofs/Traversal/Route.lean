import Dialogue.Proofs.Condition
import Dialogue.Proofs.Flow.Index
import Dialogue.Traversal

/-! The rules of routing, said without the walk: which connection is followed first, which one
behind each step, what the steps that are reached come to, and why there is no next connection.
Each request has one route by these rules, and the walk is this route. -/

namespace Dialogue

namespace FlowGraph

/-- The connections that leave a step, as the flow declares them, without those into notes. -/
def ways (g : FlowGraph) (source : StepId) : List Connection :=
  g.connections.filter fun c => c.source = source && !(g.step? c.target).any Step.isNote

theorem routable_eq_ways (g : FlowGraph) (source : StepId) : g.routable source = g.ways source := by
  rw [routable, outgoing_eq_filter, List.filter_filter, ways]
  exact List.filter_congr fun c _ => Bool.and_comm _ _

variable {g : FlowGraph} {source : StepId} {c : Connection}

theorem source_of_mem_ways (h : c ∈ g.ways source) : c.source = source := by
  have hkept := (List.mem_filter.mp h).2
  simp only [Bool.and_eq_true, decide_eq_true_eq] at hkept
  exact hkept.1

theorem isNote_of_mem_ways (h : c ∈ g.ways source) {s : Step} (hs : g.step? c.target = some s) :
    s.isNote = false := by
  have hkept := (List.mem_filter.mp h).2
  simpa [hs] using (Bool.and_eq_true_iff.mp hkept).2

end FlowGraph

namespace Walker

variable (w : Walker)

/-! ### The rules -/

def opening? (r : TraversalRequest) : Option Connection :=
  let ways := w.graph.ways r.origin
  match r.handle, r.input with
  | some handle, _ => ways.find? fun c => c.handle = some handle
  | none, none => ways.head?
  | none, some text =>
    (w.intent.bestStep? w.graph text (ways.map Connection.target)).bind fun best =>
      ways.find? fun c => c.target == best.id

/-- The connection that a step is to be left by, once it is reached with `input`. -/
def onward? (input : Option String) : Step → Option Connection
  | .start id | .userTurn id _ _ => (w.graph.ways id).head?
  | .turn id _ => if w.graph.awaitsInputAfter id then none else (w.graph.ways id).head?
  | .condition id branches =>
    match Condition.resolve branches w.store input with
    | .branch branch => (w.graph.ways id).find? fun c => c.handle = some branch
    | .missing _ | .noBranches => none
  | .note .. => none

def question? : Step → Option Interceptor
  | .condition id branches =>
    (Condition.missing? branches w.store).map fun name => ⟨w.interceptorId, name, branches, id⟩
  | _ => none

def behind? (input : Option String) (c : Connection) : Option Connection :=
  (w.graph.step? c.target).bind (w.onward? input)

/-- A chain of connections, each the one that the rules name, of which `first?` is the first, and
behind it the one that they name next. The input counts for the first step reached. -/
inductive Follows :
    Option Connection → Option String → List Connection → Option Connection → Prop where
  | nil (next? input) : Follows next? input [] next?
  | cons {c input chain next?} (rest : Follows (w.behind? input c) none chain next?) :
      Follows (some c) input (c :: chain) next?

def Linked : StepId → List Connection → Prop
  | _, [] => True
  | source, c :: rest => c.source = source ∧ Linked c.target rest

def reached (chain : List Connection) : List Step :=
  chain.filterMap fun c => w.graph.step? c.target

/-- The steps that are listed of those reached: all but starts, and but a user turn that comes first
and is shown already. -/
def listed (bubbleShown : Bool) (steps : List Step) : List Step :=
  let unsaid := if bubbleShown && steps.head?.any Step.isUserTurn then steps.tail else steps
  unsaid.filter fun s => !s.isStart

def endAt : Step → StopReason
  | .turn id _ => if w.graph.awaitsInputAfter id then .awaitingInput else .endOfChain
  | s => if (w.question? s).isSome then .awaitingVariable else .endOfChain

def endBehind (r : TraversalRequest) (chain : List Connection) : StopReason :=
  match chain.getLast? with
  | none => if r.handle = none && r.input.isSome then .noIntentMatch else .endOfChain
  | some c =>
    match w.graph.step? c.target with
    | none => .danglingConnection
    | some s => w.endAt s

/-- What the rules make of a request, of which `hops` connections at most may be followed: the
connections that are followed, the one that would come next, and the result. -/
structure Route (hops : Nat) (r : TraversalRequest) (chain : List Connection)
    (next? : Option Connection) (t : Traversal) : Prop where
  follows : w.Follows (w.opening? r) r.input chain next?
  linked : Linked r.origin chain
  notes : ∀ s ∈ w.reached chain, s.isNote = false
  within : chain.length ≤ hops
  /-- A chain is given up only if it is as long as it may be. -/
  cut : next?.isSome → chain.length = hops
  hops_eq : t.hops = chain.length
  entries_eq : t.entries =
    (listed r.bubbleShown (w.reached chain)).map .step ++
      (((w.reached chain).getLast?.bind w.question?).map .interceptor).toList
  cursor_eq : t.cursor = ((w.reached chain).getLast?.map Step.id).getD r.origin
  stop_eq : t.stop = if next?.isSome then .hopLimit else w.endBehind r chain

variable {w}

/-- The rules leave no choice. -/
theorem Follows.unique {first? : Option Connection} {input : Option String} {hops : Nat}
    {chain chain' : List Connection} {next? next?' : Option Connection}
    (h : w.Follows first? input chain next?) (h' : w.Follows first? input chain' next?')
    (hwithin : chain.length ≤ hops) (hwithin' : chain'.length ≤ hops)
    (hcut : next?.isSome → chain.length = hops) (hcut' : next?'.isSome → chain'.length = hops) :
    chain = chain' ∧ next? = next?' := by
  induction h generalizing chain' hops with
  | nil next? input =>
      cases h' with
      | nil => exact ⟨rfl, rfl⟩
      | cons rest =>
          have hnone : 0 = hops := hcut rfl
          rw [← hnone] at hwithin'
          exact absurd hwithin' (Nat.not_succ_le_zero _)
  | @cons c input chain next? rest ih =>
      cases h' with
      | nil =>
          have hnone : 0 = hops := hcut' rfl
          rw [← hnone] at hwithin
          exact absurd hwithin (Nat.not_succ_le_zero _)
      | cons rest' =>
          obtain _ | hops := hops
          · exact absurd hwithin (Nat.not_succ_le_zero _)
          · obtain ⟨rfl, hnext⟩ := ih rest' (Nat.le_of_succ_le_succ hwithin)
              (Nat.le_of_succ_le_succ hwithin') (fun h => Nat.succ.inj (hcut h))
              (fun h => Nat.succ.inj (hcut' h))
            exact ⟨rfl, hnext⟩

theorem Route.unique {hops : Nat} {r : TraversalRequest} {chain chain' : List Connection}
    {next? next?' : Option Connection} {t t' : Traversal} (h : w.Route hops r chain next? t)
    (h' : w.Route hops r chain' next?' t') : t = t' := by
  obtain ⟨rfl, rfl⟩ := h.follows.unique h'.follows h.within h'.within h.cut h'.cut
  obtain ⟨entries, cursor, stop, n⟩ := t
  obtain ⟨entries', cursor', stop', n'⟩ := t'
  simp only [Traversal.mk.injEq]
  exact ⟨h.entries_eq.trans h'.entries_eq.symm, h.cursor_eq.trans h'.cursor_eq.symm,
    h.stop_eq.trans h'.stop_eq.symm, h.hops_eq.trans h'.hops_eq.symm⟩

/-! ### The walk keeps to the rules -/

/-- A walk takes the connection that opens its route, and ends where there is none. -/
theorem exit_eq (w : Walker) (r : TraversalRequest) :
    w.exit r.origin r.handle r.input =
      match w.opening? r with
      | some c => .ok c
      | none => .error (w.endBehind r []) := by
  obtain ⟨origin, handle, input, bubbleShown⟩ := r
  simp only [exit, opening?, endBehind, List.getLast?_nil, matchIntent?, FlowGraph.next?,
    FlowGraph.routable_eq_ways]
  cases handle with
  | none =>
      cases input with
      | none => cases (w.graph.ways origin).head? <;> rfl
      | some text =>
          cases (w.intent.bestStep? w.graph text ((w.graph.ways origin).map
            Connection.target)).bind fun best =>
              (w.graph.ways origin).find? fun c => c.target == best.id <;> rfl
  | some handle => cases (w.graph.ways origin).find? fun c => c.handle = some handle <;> rfl

theorem opening?_of_exit {r : TraversalRequest} {c : Connection}
    (h : w.exit r.origin r.handle r.input = .ok c) : w.opening? r = some c := by
  rw [exit_eq] at h
  split at h
  · next hopens =>
    cases h
    exact hopens
  · cases h

theorem opening?_of_exit_error {r : TraversalRequest} {stop : StopReason}
    (h : w.exit r.origin r.handle r.input = .error stop) :
    w.opening? r = none ∧ stop = w.endBehind r [] := by
  rw [exit_eq] at h
  split at h
  · cases h
  · next hnone =>
    cases h
    exact ⟨hnone, rfl⟩

theorem mem_ways_of_opening? {r : TraversalRequest} {c : Connection} (h : w.opening? r = some c) :
    c ∈ w.graph.ways r.origin := by
  unfold opening? at h
  split at h
  · exact List.mem_of_find?_eq_some h
  · exact List.mem_of_head? h
  · obtain ⟨best, -, hfind⟩ := Option.bind_eq_some_iff.mp h
    exact List.mem_of_find?_eq_some hfind

theorem mem_ways_of_exit {cursor : StepId} {handle input : Option String} {c : Connection}
    (h : w.exit cursor handle input = .ok c) : c ∈ w.graph.ways cursor :=
  mem_ways_of_opening? (opening?_of_exit (r := ⟨cursor, handle, input, false⟩) h)

theorem question?_condition (w : Walker) (id : StepId) (branches : List Branch)
    (input : Option String) :
    w.question? (.condition id branches) =
      match Condition.resolve branches w.store input with
      | .missing name => some ⟨w.interceptorId, name, branches, id⟩
      | _ => none := by
  rw [question?]
  cases hd : Condition.resolve branches w.store input with
  | branch branch => rw [Condition.missing?_of_resolve_branch hd, Option.map_none]
  | missing name => rw [Condition.missing?_of_resolve hd, Option.map_some]
  | noBranches => rw [Condition.missing?_of_resolve_noBranches hd, Option.map_none]

/-- Reaching a step adds the step, if it is listed, and the question that it raises. -/
theorem entries_arrive (w : Walker) (input : Option String) (bubbleShown : Bool) {s : Step}
    (hnote : s.isNote = false) :
    (w.arrive input bubbleShown s).1 =
      (listed bubbleShown [s]).map .step ++ ((w.question? s).map .interceptor).toList := by
  cases s with
  | condition id branches =>
      have hlisted : listed bubbleShown [.condition id branches] = [.condition id branches] := by
        cases bubbleShown <;> rfl
      simp only [arrive, hlisted, w.question?_condition id branches input]
      cases Condition.resolve branches w.store input <;> rfl
  | note id text => cases hnote
  | _ => cases bubbleShown <;> rfl

theorem onward?_of_arrive_error {input : Option String} {bubbleShown : Bool} {s : Step}
    {entries : List Entry} {stop : StopReason}
    (h : w.arrive input bubbleShown s = (entries, .error stop)) :
    w.onward? input s = none ∧ stop = w.endAt s := by
  cases s with
  | turn id components =>
      simp only [arrive, onward?, endAt] at h ⊢
      split at h
      · next hawaits =>
        cases h
        simp [hawaits]
      · cases h
  | condition id branches =>
      revert h
      simp only [arrive, onward?, endAt, w.question?_condition id branches input]
      cases Condition.resolve branches w.store input with
      | branch branch =>
          intro h
          cases h
      | missing name =>
          rintro ⟨⟩
          exact ⟨rfl, rfl⟩
      | noBranches =>
          rintro ⟨⟩
          exact ⟨rfl, rfl⟩
  | _ => cases h

theorem onward?_of_arrive_ok {input : Option String} {bubbleShown : Bool} {s : Step}
    {entries : List Entry} {handle : Option String} (hnote : s.isNote = false)
    (h : w.arrive input bubbleShown s = (entries, .ok handle)) :
    w.onward? input s = w.opening? ⟨s.id, handle, none, false⟩ ∧ w.question? s = none ∧
      w.endAt s = .endOfChain := by
  cases s with
  | turn id components =>
      simp only [arrive, onward?, endAt] at h ⊢
      split at h
      · cases h
      · next hawaits =>
        cases h
        simp [hawaits, opening?, Step.id, question?]
  | condition id branches =>
      revert h
      simp only [arrive, onward?, endAt, w.question?_condition id branches input]
      cases Condition.resolve branches w.store input with
      | branch branch =>
          rintro ⟨⟩
          exact ⟨rfl, rfl, rfl⟩
      | _ =>
          intro h
          cases h
  | note id text => cases hnote
  | _ =>
      cases h
      exact ⟨rfl, rfl, rfl⟩

theorem reached_cons {c : Connection} {s : Step} (hs : w.graph.step? c.target = some s)
    (chain : List Connection) : w.reached (c :: chain) = s :: w.reached chain :=
  List.filterMap_cons_some hs

theorem step?_of_mem_reached {chain : List Connection} {s : Step} (h : s ∈ w.reached chain) :
    w.graph.step? s.id = some s := by
  obtain ⟨c, -, hs⟩ := List.mem_filterMap.mp h
  exact FlowGraph.step?_id hs

theorem listed_sublist (bubbleShown : Bool) (steps : List Step) :
    (listed bubbleShown steps).Sublist steps := by
  refine List.filter_sublist.trans ?_
  split
  · exact List.tail_sublist steps
  · exact List.Sublist.refl steps

theorem listed_cons (bubbleShown : Bool) (s : Step) (rest : List Step) :
    listed bubbleShown (s :: rest) = listed bubbleShown [s] ++ listed false rest := by
  cases hsaid : bubbleShown && s.isUserTurn with
  | true => simp [listed, hsaid]
  | false => simpa [listed, hsaid] using List.filter_append [s] rest

section Route

variable {r : TraversalRequest} {c : Connection} {s : Step} {hops : Nat}

theorem route_nil (hnone : w.opening? r = none) (hops : Nat) :
    w.Route hops r [] none ⟨[], r.origin, w.endBehind r [], 0⟩ :=
  ⟨hnone ▸ .nil _ _, trivial, nofun, Nat.zero_le _, nofun, rfl,
    by cases r.bubbleShown <;> rfl, rfl, rfl⟩

theorem route_zero (hopens : w.opening? r = some c) :
    w.Route 0 r [] (some c) ⟨[], r.origin, .hopLimit, 0⟩ :=
  ⟨hopens ▸ .nil _ _, trivial, nofun, Nat.le_refl _, fun _ => rfl, rfl,
    by cases r.bubbleShown <;> rfl, rfl, rfl⟩

section Opened

variable (hopens : w.opening? r = some c)

include hopens

theorem follows_single (hnone : w.behind? r.input c = none) :
    w.Follows (w.opening? r) r.input [c] none := by
  rw [hopens]
  exact .cons (hnone ▸ .nil _ _)

theorem linked_cons {chain : List Connection} (h : Linked c.target chain) :
    Linked r.origin (c :: chain) :=
  ⟨FlowGraph.source_of_mem_ways (mem_ways_of_opening? hopens), h⟩

/-- A connection that leads to no step is followed, and no other behind it. -/
theorem route_dangling (hs : w.graph.step? c.target = none) :
    w.Route (hops + 1) r [c] none ⟨[], r.origin, .danglingConnection, 1⟩ := by
  have hreached : w.reached [c] = [] := List.filterMap_cons_none hs
  have hnone : w.behind? r.input c = none := by rw [behind?, hs, Option.bind_none]
  refine ⟨follows_single hopens hnone, linked_cons hopens trivial, ?_,
    Nat.succ_le_succ (Nat.zero_le _), nofun, rfl, ?_, ?_, ?_⟩
  · rw [hreached]
    nofun
  · rw [hreached]
    cases r.bubbleShown <;> rfl
  · rw [hreached]
    rfl
  · simp [endBehind, hs]

theorem route_single (hs : w.graph.step? c.target = some s)
    (hstays : w.onward? r.input s = none) :
    w.Route (hops + 1) r [c] none
      ⟨(listed r.bubbleShown [s]).map .step ++ ((w.question? s).map .interceptor).toList,
        s.id, w.endAt s, 1⟩ := by
  have hreached : w.reached [c] = [s] := reached_cons hs []
  have hnone : w.behind? r.input c = none := by rw [behind?, hs, Option.bind_some, hstays]
  refine ⟨follows_single hopens hnone, linked_cons hopens trivial, ?_,
    Nat.succ_le_succ (Nat.zero_le _), nofun, rfl, ?_, ?_, ?_⟩
  · rw [hreached]
    exact List.forall_mem_singleton.mpr
      (FlowGraph.isNote_of_mem_ways (mem_ways_of_opening? hopens) hs)
  · rw [hreached]
    rfl
  · rw [hreached]
    rfl
  · simp [endBehind, hs]

/-- Behind its first step a route goes on as the route from there. -/
theorem Route.cons {handle : Option String} {chain : List Connection} {next? : Option Connection}
    {t : Traversal} (hs : w.graph.step? c.target = some s)
    (honward : w.onward? r.input s = w.opening? ⟨s.id, handle, none, false⟩)
    (hpassed : w.question? s = none) (hend : w.endAt s = .endOfChain)
    (h : w.Route hops ⟨s.id, handle, none, false⟩ chain next? t) :
    w.Route (hops + 1) r (c :: chain) next?
      (t.after ((listed r.bubbleShown [s]).map .step)) := by
  have hreached := reached_cons hs chain
  have hlast : (s :: w.reached chain).getLast? = some ((w.reached chain).getLast?.getD s) :=
    List.getLast?_cons
  refine ⟨?_, linked_cons hopens ?_, ?_, Nat.succ_le_succ h.within,
    fun hnext => congrArg Nat.succ (h.cut hnext), congrArg Nat.succ h.hops_eq, ?_, ?_, ?_⟩
  · have hbehind : w.behind? r.input c = w.opening? ⟨s.id, handle, none, false⟩ := by
      rw [behind?, hs, Option.bind_some, honward]
    rw [hopens]
    exact .cons (hbehind ▸ h.follows)
  · rw [← (FlowGraph.step?_eq_some hs).2]
    exact h.linked
  · rw [hreached]
    exact List.forall_mem_cons.mpr
      ⟨FlowGraph.isNote_of_mem_ways (mem_ways_of_opening? hopens) hs, h.notes⟩
  · rw [hreached, hlast, listed_cons r.bubbleShown s (w.reached chain), Traversal.after,
      h.entries_eq, List.map_append, List.append_assoc]
    cases (w.reached chain).getLast? <;> simp [hpassed]
  · rw [hreached, hlast, Traversal.after, h.cursor_eq]
    cases (w.reached chain).getLast? <;> rfl
  · rw [Traversal.after, h.stop_eq]
    cases chain with
    | nil => simp [endBehind, hs, hend]
    | cons c' chain =>
        obtain ⟨last, hlast⟩ : ∃ last, (c' :: chain).getLast? = some last := ⟨_, List.getLast?_cons⟩
        simp only [endBehind, List.getLast?_cons_cons, hlast]

end Opened

end Route

/-- What a walk comes to is what the rules make of its request. -/
theorem exists_route (w : Walker) (hops : Nat) (r : TraversalRequest) :
    ∃ chain next?, w.Route hops r chain next?
      (w.walk r.origin r.handle r.input r.bubbleShown hops) := by
  obtain ⟨cursor, handle, input, bubbleShown⟩ := r
  simp only
  fun_induction walk w cursor handle input bubbleShown hops with
  | case1 hops cursor handle input bubbleShown stop hexit =>
      obtain ⟨hnone, rfl⟩ :=
        opening?_of_exit_error (r := ⟨cursor, handle, input, bubbleShown⟩) hexit
      exact ⟨[], none, route_nil hnone hops⟩
  | case2 cursor handle input bubbleShown c hexit =>
      have hopens := opening?_of_exit (r := ⟨cursor, handle, input, bubbleShown⟩) hexit
      exact ⟨[], some c, route_zero hopens⟩
  | case3 cursor handle input bubbleShown c hexit hops hs =>
      have hopens := opening?_of_exit (r := ⟨cursor, handle, input, bubbleShown⟩) hexit
      exact ⟨[c], none, route_dangling hopens hs⟩
  | case4 cursor handle input bubbleShown c hexit hops s hs entries stop ha =>
      have hopens := opening?_of_exit (r := ⟨cursor, handle, input, bubbleShown⟩) hexit
      have hnote := FlowGraph.isNote_of_mem_ways (mem_ways_of_opening? hopens) hs
      obtain ⟨hstays, rfl⟩ := onward?_of_arrive_error ha
      have hentries := w.entries_arrive input bubbleShown hnote
      simp only [ha] at hentries
      rw [hentries]
      exact ⟨[c], none, route_single hopens hs hstays⟩
  | case5 cursor handle input bubbleShown c hexit hops s hs entries next ha ih =>
      have hopens := opening?_of_exit (r := ⟨cursor, handle, input, bubbleShown⟩) hexit
      have hnote := FlowGraph.isNote_of_mem_ways (mem_ways_of_opening? hopens) hs
      obtain ⟨honward, hpassed, hend⟩ := onward?_of_arrive_ok hnote ha
      have hentries := w.entries_arrive input bubbleShown hnote
      rw [ha, hpassed] at hentries
      obtain ⟨chain, next?, hroute⟩ := ih
      have hlisted : entries = (listed bubbleShown [s]).map .step := by simpa using hentries
      rw [hlisted]
      exact ⟨c :: chain, next?, hroute.cons hopens hs honward hpassed hend⟩

/-- A walk is made of the connections that the rules name, lists the steps that these lead to, and
ends where the rules name no more or the walk may not be longer; and there is only one such
result. -/
theorem traverse_eq_iff_route (w : Walker) (limits : TraversalLimits) (r : TraversalRequest)
    (t : Traversal) :
    w.traverse limits r = t ↔ ∃ chain next?, w.Route limits.maxHops r chain next? t := by
  refine ⟨?_, fun ⟨chain, next?, h⟩ => ?_⟩
  · rintro rfl
    exact w.exists_route limits.maxHops r
  · obtain ⟨chain', next?', h'⟩ := w.exists_route limits.maxHops r
    exact h'.unique h

end Walker

end Dialogue
