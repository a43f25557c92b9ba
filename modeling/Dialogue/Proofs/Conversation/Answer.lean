import Dialogue.Proofs.Session.Conditions
import Dialogue.Proofs.Session.Growth

/-! An answer is taken as a whole or not at all, and once. One to a question that is there takes
this question away, binds the variable that it names unless it takes the default, and changes
nothing else; one to a question that is not there changes nothing. So where every question has an id
of its own, all answers to it but the first are stale. -/

namespace Dialogue

theorem Entry.Loses.questions_perm {i : Interceptor} {es es' : List Entry} (h : Loses i es es') :
    (questions es).Perm (i :: questions es') := by
  obtain ⟨front, back, rfl, rfl⟩ := h
  rw [questions_append, questions_append, questions_cons]
  exact List.perm_middle

namespace Conversation

variable {c c' : Conversation}

theorem take?_eq_none_iff {id : String} :
    c.take? id = none ↔ ∀ i, .interceptor i ∈ c.history ++ c.queue → i.id ≠ id := by
  constructor
  · rintro h i hi rfl
    exact take?_eq_none h _ hi (Entry.isInterceptor_id i)
  · intro h
    cases ht : c.take? id with
    | none => rfl
    | some taken =>
        obtain ⟨e, he, hid⟩ := exists_of_take? ht
        obtain ⟨i, rfl, hi⟩ := Entry.exists_of_isInterceptor hid
        exact absurd hi (h i he)

/-- What an answer that is taken makes of a conversation: history or the queue has lost one question
with the id that the answer names, a value that does not stand for the default is bound to the
variable that it names, nobody waits for the question any more, and all else is as it was. -/
structure Takes (ch : Choice) (c c' : Conversation) : Prop where
  question : ∃ i, i.id = ch.interceptorId ∧
    ((Entry.Loses i c.history c'.history ∧ c'.queue = c.queue) ∨
      (c'.history = c.history ∧ Entry.Loses i c.queue c'.queue))
  store : ∀ name, c'.store.get? name =
    if ch.value ≠ Choice.defaultValue ∧ ch.variableName = name then some (.text name ch.value)
    else c.store.get? name
  phase : c'.phase = if c.phase = .awaitingInterceptor then .idle else c.phase
  rest : c' = { c with
    history := c'.history
    queue := c'.queue
    store := c'.store
    phase := c'.phase }

/-- A question that is taken out was in one place, and leaves the other alone. -/
theorem exists_loses_of_take? {id : String} {j : Interceptor} (h : c.take? id = some (j, c')) :
    ∃ i, i.id = id ∧ ((Entry.Loses i c.history c'.history ∧ c'.queue = c.queue) ∨
      (c'.history = c.history ∧ Entry.Loses i c.queue c'.queue)) := by
  obtain ⟨e, he, hid⟩ := exists_of_take? h
  rcases take?_eq_some h with ⟨hhistory, rfl⟩ | ⟨hhistory, rfl⟩
  · obtain ⟨i, hi, hloses⟩ := Entry.exists_loses_eraseP hhistory
    exact ⟨i, hi, .inl ⟨hloses, rfl⟩⟩
  · have hqueue : e ∈ c.queue := (List.mem_append.mp he).resolve_left fun he => hhistory e he hid
    obtain ⟨i, hi, hloses⟩ := Entry.exists_loses_eraseP ⟨e, hqueue, hid⟩
    exact ⟨i, hi, .inr ⟨rfl, hloses⟩⟩

theorem resolve_of_take?_eq_none {ch : Choice} (h : c.take? ch.interceptorId = none)
    (freshId : String) : c.resolve ch freshId = (.stale, c) := by
  simp only [resolve, h]

theorem takes_resolve {ch : Choice} {j : Interceptor} (h : c.take? ch.interceptorId = some (j, c'))
    (freshId : String) : Takes ch c (c.resolve ch freshId).2 := by
  have hquestion := exists_loses_of_take? h
  have hstore : c'.store = c.store := by rw [take?_frame h]
  have hphase : c'.phase = c.phaseWithout := by rw [take?_frame h]
  have hrest : c' = { c with
      history := c'.history
      queue := c'.queue
      store := c'.store
      phase := c'.phase } := by
    rw [hstore, hphase]
    exact take?_frame h
  simp only [resolve, h]
  split
  · next hdefault => exact ⟨hquestion, fun name => by simp [hdefault, hstore], hphase, hrest⟩
  · next hdefault =>
    refine ⟨hquestion, fun name => ?_, hphase,
      congrArg (fun d => d.setVariable (.text ch.variableName ch.value)) hrest⟩
    by_cases hname : ch.variableName = name
    · simp [setVariable, Variables.get?_set, Variable.text, hdefault, hname]
    · simp [setVariable, Variables.get?_set, Variable.text, hname, hstore]

theorem Takes.interceptors_perm {ch : Choice} (h : Takes ch c c') :
    ∃ i, i.id = ch.interceptorId ∧ c.interceptors.Perm (i :: c'.interceptors) := by
  obtain ⟨i, hi, ⟨hloses, hqueue⟩ | ⟨hhistory, hloses⟩⟩ := h.question
  · refine ⟨i, hi, ?_⟩
    rw [interceptors_eq, interceptors_eq, hqueue]
    exact hloses.questions_perm.append_right _
  · refine ⟨i, hi, ?_⟩
    rw [interceptors_eq, interceptors_eq, hhistory]
    exact (hloses.questions_perm.append_left _).trans List.perm_middle

/-- Where questions have ids of their own, none is left with the id that was answered. -/
theorem Takes.take?_eq_none {ch : Choice} (h : Takes ch c c')
    (hids : (c.interceptors.map Interceptor.id).Nodup) : c'.take? ch.interceptorId = none := by
  obtain ⟨i, hi, hperm⟩ := h.interceptors_perm
  have hfresh := (List.nodup_cons.mp ((hperm.map Interceptor.id).nodup_iff.mp hids)).1
  refine take?_eq_none_iff.mpr fun j hj hid => hfresh ?_
  rw [hi, ← hid]
  exact List.mem_map_of_mem (mem_interceptors.mpr (List.mem_append.mp hj))

/-- An answer is stale just if no question has the id that it names, and then it changes nothing.
Any other takes one such question away, binds its value unless that stands for the default, and
changes nothing else. Where questions have ids of their own, every further answer to the same one is
stale and changes nothing. -/
theorem answer_counts_once (c : Conversation) (ch : Choice) (freshId : String) :
    let resumption := (c.resolve ch freshId).1
    let after := (c.resolve ch freshId).2
    (resumption = .stale ↔
        ∀ i, .interceptor i ∈ c.history ++ c.queue → i.id ≠ ch.interceptorId) ∧
      (resumption = .stale → after = c) ∧
      (resumption ≠ .stale → Takes ch c after) ∧
      ((c.interceptors.map Interceptor.id).Nodup → ∀ again : Choice, ∀ freshId',
        again.interceptorId = ch.interceptorId →
          after.resolve again freshId' = (.stale, after)) := by
  intro resumption after
  cases ht : c.take? ch.interceptorId with
  | none =>
      have hresolve : c.resolve ch freshId = (.stale, c) := resolve_of_take?_eq_none ht freshId
      have hstale : resumption = .stale := congrArg Prod.fst hresolve
      have hsame : after = c := congrArg Prod.snd hresolve
      refine ⟨iff_of_true hstale (take?_eq_none_iff.mp ht), fun _ => hsame,
        fun hne => absurd hstale hne, fun _ again freshId' hid => ?_⟩
      rw [hsame]
      exact resolve_of_take?_eq_none (hid ▸ ht) freshId'
  | some taken =>
      have hne : resumption ≠ .stale := resolve_ne_stale_of_take? freshId ht
      have htakes : Takes ch c after := takes_resolve ht freshId
      refine ⟨iff_of_false hne fun hnone => ?_, fun hstale => absurd hstale hne, fun _ => htakes,
        fun hids again freshId' hid => ?_⟩
      · rw [take?_eq_none_iff.mpr hnone] at ht
        cases ht
      · exact resolve_of_take?_eq_none (hid ▸ htakes.take?_eq_none hids) freshId'

/-- An answer to the question in the queue that names another step, variable and branches than the
question does. Its variable is bound, and the question of the step that it names stays. -/
theorem answer_counts_once_astray :
    let mood : Interceptor := ⟨"k", "mood", [.fallback "other"], "mood"⟩
    let name : Interceptor := ⟨"l", "name", [.fallback "other"], "who"⟩
    let c : Conversation :=
      { history := [.interceptor mood], queue := [.interceptor name],
        phase := .awaitingInterceptor }
    let ch : Choice := ⟨"mood", "mood", "good", [.fallback "glad"], "l"⟩
    let after := (c.resolve ch "m").2
    (c.resolve ch "m").1 = .resume "mood" "glad" (some (.text "mood" "good")) ∧
      after.interceptors = [mood] ∧ after.store.value? "mood" = some "good" ∧
      after.resolve (.answer name "Ada") "n" = (.stale, after) := by
  intro mood name c ch after
  have h := answer_counts_once c ch "m"
  have hids : (c.interceptors.map Interceptor.id).Nodup := by decide +kernel
  exact ⟨by decide +kernel, by decide +kernel, by decide +kernel,
    h.2.2.2 hids (.answer name "Ada") "n" rfl⟩

end Conversation

end Dialogue
