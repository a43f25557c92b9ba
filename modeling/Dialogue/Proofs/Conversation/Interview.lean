import Mathlib.Data.List.Dedup
import Mathlib.Data.List.Perm.Subperm
import Dialogue.Proofs.Conversation.Answer
import Dialogue.Proofs.Session.Pausing

/-! Asking ends. An answer binds the variable that was asked for or takes the default, and a
question that it raises is for a variable that is not bound yet. So no variable is asked for twice,
there are no more questions than variables that the branches need, and the last answer leads on by
one of the branches. -/

namespace Dialogue

namespace Variables

theorem contains_set (vs : Variables) (v : Variable) (name : String) :
    (vs.set v).contains name = (v.name == name || vs.contains name) := by
  rw [contains_eq, contains_eq, get?_set]
  by_cases h : v.name = name
  · simp [h]
  · simp [h]

end Variables

theorem Condition.mem_needed_of_missing? {branches : List Branch} {vs : Variables} {name : String}
    (h : missing? branches vs = some name) : name ∈ needed branches := by
  obtain ⟨bound, later, hsplit, -⟩ := missing?_eq_some_iff.mp h
  rw [hsplit]
  exact List.mem_append_right _ List.mem_cons_self

def Resumption.question? : Resumption → Option Interceptor
  | stillMissing question _ => some question
  | _ => none

/-- A question that was answered: the conversation that the answer was given in, what came of it,
and the conversation after it. -/
structure Exchange where
  question : Interceptor
  before : Conversation
  resumption : Resumption
  after : Conversation

namespace Exchange

def raised? (x : Exchange) : Option Interceptor := x.resumption.question?

/-- The questions of exchanges that begin with `i`, the one still to be answered among them. -/
def asked (i : Interceptor) (xs : List Exchange) : List Interceptor := i :: xs.filterMap raised?

end Exchange

namespace Conversation

/-- The exchanges that come of values to answer with: the first answers `i`, and each further one
the question that the answer before it has raised, once this is committed. A value comes with the id
for the question that it may raise. -/
def interview (c : Conversation) (i : Interceptor) : List (String × String) → List Exchange
  | [] => []
  | (value, freshId) :: rest =>
    let (resumption, after) := c.resolve (.answer i value) freshId
    ⟨i, c, resumption, after⟩ ::
      match resumption.question? with
      | some next => (after.commit (.interceptor next)).interview next rest
      | none => []

variable {c : Conversation} {i next : Interceptor}

section Step

variable {value freshId : String}

theorem interview_cons_of_some (rest : List (String × String))
    (h : (c.resolve (.answer i value) freshId).1.question? = some next) :
    c.interview i ((value, freshId) :: rest) =
      ⟨i, c, (c.resolve (.answer i value) freshId).1, (c.resolve (.answer i value) freshId).2⟩ ::
        ((c.resolve (.answer i value) freshId).2.commit (.interceptor next)).interview next
          rest := by
  rw [interview]
  simp only [h]

theorem interview_cons_of_none (rest : List (String × String))
    (h : (c.resolve (.answer i value) freshId).1.question? = none) :
    c.interview i ((value, freshId) :: rest) =
      [⟨i, c, (c.resolve (.answer i value) freshId).1,
        (c.resolve (.answer i value) freshId).2⟩] := by
  rw [interview]
  simp only [h]

theorem raised_cons_of_some (rest : List (String × String))
    (h : (c.resolve (.answer i value) freshId).1.question? = some next) :
    (c.interview i ((value, freshId) :: rest)).filterMap Exchange.raised? =
      next :: (((c.resolve (.answer i value) freshId).2.commit
        (.interceptor next)).interview next rest).filterMap Exchange.raised? := by
  rw [interview_cons_of_some rest h]
  exact List.filterMap_cons_some h

theorem raised_cons_of_none (rest : List (String × String))
    (h : (c.resolve (.answer i value) freshId).1.question? = none) :
    (c.interview i ((value, freshId) :: rest)).filterMap Exchange.raised? = [] := by
  rw [interview_cons_of_none rest h]
  exact List.filterMap_cons_none h

/-- An answer that raises a question has bound its variable, and lacks the one that it asks for. -/
theorem resolve_of_question? (h : (c.resolve (.answer i value) freshId).1.question? = some next) :
    (c.resolve (.answer i value) freshId).2.store = c.store.set (.text i.variableName value) ∧
      Condition.missing? i.branches (c.store.set (.text i.variableName value)) =
        some next.variableName ∧
      next.branches = i.branches ∧ next.stepId = i.stepId := by
  unfold resolve at h ⊢
  split at h
  · cases h
  · next j c' ht =>
    have hstore : c'.store = c.store := by rw [take?_frame ht]
    split at h
    · unfold Choice.resumeByDefault at h
      split at h <;> cases h
    · next hvalue =>
      simp only [Choice.answer, setVariable, hstore, Choice.resumeUnder] at h
      split at h
      · cases h
      · next name hresolve =>
        cases h
        refine ⟨?_, Condition.missing?_of_resolve hresolve, rfl, rfl⟩
        rw [if_neg hvalue]
        simp only [setVariable, hstore, Choice.answer]
      · cases h

/-- What an answer asks for is needed, and was bound neither before the answer nor by it. -/
theorem unbound_of_question? (h : (c.resolve (.answer i value) freshId).1.question? = some next) :
    (c.resolve (.answer i value) freshId).2.store.contains next.variableName = false ∧
      next.variableName ∈ Condition.needed i.branches := by
  obtain ⟨hstore, hmissing, -, -⟩ := resolve_of_question? h
  rw [hstore]
  exact ⟨Condition.contains_of_missing? hmissing, Condition.mem_needed_of_missing? hmissing⟩

/-- An answer unbinds nothing, and what is unbound after one that raises a question was not asked
for. -/
theorem unbound_before {name : String}
    (h : (c.resolve (.answer i value) freshId).1.question? = some next)
    (hname : (c.resolve (.answer i value) freshId).2.store.contains name = false) :
    c.store.contains name = false ∧ name ≠ i.variableName := by
  obtain ⟨hstore, -, -, -⟩ := resolve_of_question? h
  rw [hstore, Variables.contains_set, Bool.or_eq_false_iff, beq_eq_false_iff_ne] at hname
  exact ⟨hname.2, fun heq => hname.1 heq.symm⟩

/-- An answer to a question that is there leads on, unless it raises another. -/
theorem leads_on (hpending : .interceptor i ∈ c.history ++ c.queue) (hbranches : i.branches ≠ [])
    (h : (c.resolve (.answer i value) freshId).1.question? = none) :
    ∃ b ∈ i.branches, ∃ written,
      (c.resolve (.answer i value) freshId).1 = .resume i.stepId b.id written := by
  have hkeeps := c.keepsTo_resolve (.answer i value) freshId
  have hstale : (c.resolve (.answer i value) freshId).1 ≠ .stale := by
    obtain ⟨j, c', ht⟩ := exists_take?_of_isInterceptor hpending (Entry.isInterceptor_id i)
    exact resolve_ne_stale_of_take? freshId ht
  cases hr : (c.resolve (.answer i value) freshId).1 with
  | resume origin handle written =>
      rw [hr] at hkeeps
      obtain ⟨rfl, b, hb, rfl⟩ := hkeeps
      exact ⟨b, hb, written, rfl⟩
  | stillMissing question written =>
      rw [hr] at h
      cases h
  | noBranch written =>
      rw [hr] at hkeeps
      exact absurd hkeeps hbranches
  | stale => exact absurd hr hstale

theorem pending?_of_interceptors (honly : c.interceptors = [i]) : c.pending? = some i := by
  rw [pending?, honly]
  rfl

/-- After an answer to the only question, one that is committed is again the only one. -/
theorem interceptors_commit_resolve (honly : c.interceptors = [i]) :
    ((c.resolve (.answer i value) freshId).2.commit (.interceptor next)).interceptors = [next] := by
  have hnone : (c.resolve (.answer i value) freshId).2.interceptors = [] := by
    obtain ⟨k, c', ht⟩ := exists_take?_of_pending? (pending?_of_interceptors honly)
    have htakes : Takes (.answer i value) c (c.resolve (.answer i value) freshId).2 :=
      takes_resolve ht freshId
    obtain ⟨j, -, hperm⟩ := htakes.interceptors_perm
    have hlength := hperm.length_eq
    rw [honly] at hlength
    simpa using hlength
  rw [interceptors_eq, List.append_eq_nil_iff] at hnone
  rw [interceptors_eq, history_commit, Entry.questions_append, hnone.1]
  simp only [commit, hnone.2]
  rfl

end Step

theorem exists_resolve_of_mem_interview {x : Exchange} {replies : List (String × String)}
    (h : x ∈ c.interview i replies) : ∃ value freshId,
      x.before.resolve (.answer x.question value) freshId = (x.resumption, x.after) := by
  induction replies generalizing c i with
  | nil => cases h
  | cons reply rest ih =>
      obtain ⟨value, freshId⟩ := reply
      cases hq : (c.resolve (.answer i value) freshId).1.question? with
      | none =>
          rw [interview_cons_of_none rest hq] at h
          obtain rfl := List.mem_singleton.mp h
          exact ⟨value, freshId, rfl⟩
      | some next =>
          rw [interview_cons_of_some rest hq] at h
          rcases List.mem_cons.mp h with rfl | h
          · exact ⟨value, freshId, rfl⟩
          · exact ih h

/-- All that is asked for after a question was unbound when it was answered, is another variable
than its own, and is needed by its branches. -/
theorem unbound_of_raised {q : Interceptor} {replies : List (String × String)}
    (h : q ∈ (c.interview i replies).filterMap Exchange.raised?) :
    c.store.contains q.variableName = false ∧ q.variableName ≠ i.variableName ∧
      q.variableName ∈ Condition.needed i.branches := by
  induction replies generalizing c i with
  | nil => cases h
  | cons reply rest ih =>
      obtain ⟨value, freshId⟩ := reply
      cases hq : (c.resolve (.answer i value) freshId).1.question? with
      | none =>
          rw [raised_cons_of_none rest hq] at h
          cases h
      | some next =>
          -- What is unbound later is unbound now, as answers unbind nothing.
          obtain ⟨-, -, hbranches, -⟩ := resolve_of_question? hq
          obtain ⟨hnext, hneeded⟩ := unbound_of_question? hq
          rw [raised_cons_of_some rest hq] at h
          rcases List.mem_cons.mp h with rfl | h
          · obtain ⟨hunbound, hne⟩ := unbound_before hq hnext
            exact ⟨hunbound, hne, hneeded⟩
          · obtain ⟨hlater, -, hneeded⟩ := ih h
            obtain ⟨hunbound, hne⟩ := unbound_before hq hlater
            exact ⟨hunbound, hne, hbranches ▸ hneeded⟩

/-- No variable is asked for twice. -/
theorem nodup_asked (c : Conversation) (i : Interceptor) (replies : List (String × String)) :
    ((Exchange.asked i (c.interview i replies)).map Interceptor.variableName).Nodup := by
  induction replies generalizing c i with
  | nil => exact List.nodup_singleton _
  | cons reply rest ih =>
      obtain ⟨value, freshId⟩ := reply
      refine List.nodup_cons.mpr ⟨fun hmem => ?_, ?_⟩
      · obtain ⟨q, hq, hname⟩ := List.mem_map.mp hmem
        exact (unbound_of_raised hq).2.1 hname
      · cases hq : (c.resolve (.answer i value) freshId).1.question? with
        | none =>
            rw [raised_cons_of_none rest hq]
            exact List.nodup_nil
        | some next =>
            rw [raised_cons_of_some rest hq]
            exact ih _ next

theorem length_asked_le (c : Conversation) {i : Interceptor}
    (hi : i.variableName ∈ Condition.needed i.branches) (replies : List (String × String)) :
    (Exchange.asked i (c.interview i replies)).length ≤
      (Condition.needed i.branches).dedup.length := by
  have hneeded : (Exchange.asked i (c.interview i replies)).map Interceptor.variableName ⊆
      (Condition.needed i.branches).dedup := by
    intro name hname
    obtain ⟨q, hq, rfl⟩ := List.mem_map.mp hname
    rw [List.mem_dedup]
    rcases List.mem_cons.mp hq with rfl | hq
    · exact hi
    · exact (unbound_of_raised hq).2.2
  have hle := ((c.nodup_asked i replies).subperm hneeded).length_le
  rwa [List.length_map] at hle

/-- Either every answer has raised another question and there is none left to give, or the last one
leads on. -/
theorem interview_cases (hpending : .interceptor i ∈ c.history ++ c.queue)
    (hbranches : i.branches ≠ []) (replies : List (String × String)) :
    (∃ earlier last, c.interview i replies = earlier ++ [last] ∧
        (∀ x ∈ earlier, x.raised?.isSome = true) ∧
        ∃ b ∈ i.branches, ∃ written, last.resumption = .resume i.stepId b.id written) ∨
      ((c.interview i replies).length = replies.length ∧
        ∀ x ∈ c.interview i replies, x.raised?.isSome = true) := by
  induction replies generalizing c i with
  | nil => exact .inr ⟨rfl, List.forall_mem_nil _⟩
  | cons reply rest ih =>
      obtain ⟨value, freshId⟩ := reply
      cases hq : (c.resolve (.answer i value) freshId).1.question? with
      | none =>
          rw [interview_cons_of_none rest hq]
          exact .inl ⟨[], _, rfl, List.forall_mem_nil _, leads_on hpending hbranches hq⟩
      | some next =>
          obtain ⟨-, -, hsame, hstep⟩ := resolve_of_question? hq
          have hraised : Exchange.raised? ⟨i, c, (c.resolve (.answer i value) freshId).1,
              (c.resolve (.answer i value) freshId).2⟩ = some next := hq
          have hcommitted : .interceptor next ∈
              ((c.resolve (.answer i value) freshId).2.commit (.interceptor next)).history ++
                ((c.resolve (.answer i value) freshId).2.commit (.interceptor next)).queue := by
            simp
          rw [interview_cons_of_some rest hq]
          rcases ih hcommitted (hsame ▸ hbranches) with
            ⟨earlier, last, hsplit, hearlier, hlast⟩ | ⟨hlength, hall⟩
          · rw [hsame, hstep] at hlast
            refine .inl ⟨_ :: earlier, last, by rw [hsplit]; rfl, ?_, hlast⟩
            exact List.forall_mem_cons.mpr ⟨by rw [hraised]; rfl, hearlier⟩
          · refine .inr ⟨congrArg (· + 1) hlength, ?_⟩
            exact List.forall_mem_cons.mpr ⟨by rw [hraised]; rfl, hall⟩

/-- Every answer is given to the one question that is pending. -/
theorem pending?_of_mem_interview (honly : c.interceptors = [i]) {x : Exchange}
    {replies : List (String × String)} (h : x ∈ c.interview i replies) :
    x.before.pending? = some x.question := by
  induction replies generalizing c i with
  | nil => cases h
  | cons reply rest ih =>
      obtain ⟨value, freshId⟩ := reply
      have hpending : c.pending? = some i := pending?_of_interceptors honly
      cases hq : (c.resolve (.answer i value) freshId).1.question? with
      | none =>
          rw [interview_cons_of_none rest hq] at h
          obtain rfl := List.mem_singleton.mp h
          exact hpending
      | some next =>
          rw [interview_cons_of_some rest hq] at h
          rcases List.mem_cons.mp h with rfl | h
          · exact hpending
          · exact ih (interceptors_commit_resolve honly) h

end Conversation

/-- Where a walk has asked for a variable, answers come to an end. Every question is for a variable
that is not bound when it is raised and that no question before it was for, so there are no more
questions than variables that the branches need; and the last answer leads on by one of the
branches, unless too few answers are given. If no other question is pending at first, every answer
is given to the one that is pending then. -/
theorem Walker.asking_ends (w : Walker) (limits : TraversalLimits) (r : TraversalRequest)
    {i : Interceptor} (hasks : (w.traverse limits r).interceptor? = some i) {c : Conversation}
    (hpending : .interceptor i ∈ c.history ++ c.queue) (replies : List (String × String)) :
    let exchanges := c.interview i replies
    let asked := Exchange.asked i exchanges
    let needed := (Condition.needed i.branches).dedup
    w.store.contains i.variableName = false ∧
      (∀ x ∈ exchanges, ∀ q, x.raised? = some q →
        x.after.store.contains q.variableName = false) ∧
      (asked.map Interceptor.variableName).Nodup ∧
      asked.length ≤ needed.length ∧
      ((∃ earlier last, exchanges = earlier ++ [last] ∧
          (∀ x ∈ earlier, x.raised?.isSome = true) ∧
          ∃ b ∈ i.branches, ∃ written, last.resumption = .resume i.stepId b.id written) ∨
        (exchanges.length = replies.length ∧ (∀ x ∈ exchanges, x.raised?.isSome = true) ∧
          replies.length < needed.length)) ∧
      (c.interceptors = [i] → ∀ x ∈ exchanges, x.before.pending? = some x.question) := by
  intro exchanges asked needed
  obtain ⟨hmissing, -⟩ := missing?_of_interceptor? hasks
  have hmem := Condition.mem_needed_of_missing? hmissing
  have hbranches : i.branches ≠ [] := by
    intro hnone
    rw [hnone] at hmem
    cases hmem
  have hlength : asked.length ≤ needed.length := c.length_asked_le hmem replies
  refine ⟨Condition.contains_of_missing? hmissing, fun x hx q hq => ?_, c.nodup_asked i replies,
    hlength, ?_, fun honly x hx => Conversation.pending?_of_mem_interview honly hx⟩
  · obtain ⟨value, freshId, hresolve⟩ := Conversation.exists_resolve_of_mem_interview hx
    have hraised : (x.before.resolve (.answer x.question value) freshId).1.question? = some q := by
      rw [hresolve]
      exact hq
    have hunbound := (Conversation.unbound_of_question? hraised).1
    rwa [hresolve] at hunbound
  · rcases Conversation.interview_cases hpending hbranches replies with hends | ⟨hall, hraised⟩
    · exact .inl hends
    · refine .inr ⟨hall, hraised, ?_⟩
      have hcount : asked.length = exchanges.length + 1 := by
        rw [← List.filterMap_length_eq_length.mpr hraised]
        rfl
      calc
        replies.length = exchanges.length := hall.symm
        _ < asked.length := by rw [hcount]; exact Nat.lt_succ_self _
        _ ≤ needed.length := hlength

def tripBranches : List Branch :=
  [(Branch.plain "swim").guardedBy "place" "sea", (Branch.plain "ski").guardedBy "season" "winter",
    (Branch.plain "dive").guardedBy "place" "reef",
    (Branch.fallback "stay").guardedBy "budget" "low"]

def tripFlow : Flow where
  steps := [.start "start", .condition "trip" tripBranches]
  connections := [.between "start" "trip"]

def trip : FlowGraph := ⟨tripFlow, by decide +kernel, _, rfl, _, rfl⟩

/-- The second of three answers leads on, so the third is not given. -/
theorem Walker.asking_ends_trip :
    let w : Walker := ⟨trip, .empty, .standard, "asked"⟩
    let i : Interceptor := ⟨"asked", "place", tripBranches, "trip"⟩
    let c : Conversation := { queue := [.interceptor i], phase := .awaitingInterceptor }
    let exchanges := c.interview i [("lake", "again"), ("winter", "more"), ("low", "last")]
    (w.traverse .standard { origin := "start" }).interceptor? = some i ∧
      exchanges.map Exchange.resumption =
        [.stillMissing ⟨"again", "season", tripBranches, "trip"⟩ (some (.text "place" "lake")),
          .resume "trip" "ski" (some (.text "season" "winter"))] ∧
      ∀ x ∈ exchanges, x.before.pending? = some x.question := by
  intro w i c exchanges
  have hasks : (w.traverse .standard { origin := "start" }).interceptor? = some i := by
    decide +kernel
  have h := asking_ends w .standard { origin := "start" } hasks (c := c) (by decide +kernel)
    [("lake", "again"), ("winter", "more"), ("low", "last")]
  exact ⟨hasks, by decide +kernel, h.2.2.2.2.2 (by decide +kernel)⟩

end Dialogue
