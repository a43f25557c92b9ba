import Dialogue.Condition
import Dialogue.Conversation.State

/-! Answers to questions. An answer takes the question away, binds the variable that was asked for
and decides the condition anew. Only here do conditions write variables. -/

namespace Dialogue

/-- An answer: the question meant, and what to do with the value. -/
structure Choice where
  stepId : StepId
  variableName : String
  value : String
  branches : List Branch
  interceptorId : String
  deriving DecidableEq, Repr

namespace Choice

/-- The value that takes the default branch and binds nothing. -/
def defaultValue : String := "__default__"

/-- An answer to a question as it was asked. -/
def answer (i : Interceptor) (value : String) : Choice :=
  ⟨i.stepId, i.variableName, value, i.branches, i.id⟩

def takeDefault (i : Interceptor) : Choice := answer i defaultValue

end Choice

/-- How a conversation goes on after an answer. -/
inductive Resumption where
  | resume (stepId : StepId) (handle : BranchId) (written : Option Variable)
  | stillMissing (question : Interceptor) (written : Option Variable)
  | noBranch (written : Option Variable)
  | stale
  deriving DecidableEq, Repr

namespace Resumption

/-- The variable that was bound. -/
def written? : Resumption → Option Variable
  | resume _ _ written | stillMissing _ written | noBranch written => written
  | stale => none

end Resumption

namespace Choice

/-- Takes the default branch. -/
def resumeByDefault (ch : Choice) : Resumption :=
  match Condition.fallback? ch.branches with
  | some b => .resume ch.stepId b.id none
  | none => .noBranch none

/-- Decides the condition under new variables; a question that this raises has the id given. -/
def resumeUnder (ch : Choice) (vs : Variables) (written : Variable) (freshId : String) :
    Resumption :=
  match Condition.resolve ch.branches vs (some ch.value) with
  | .branch handle => .resume ch.stepId handle (some written)
  | .missing name => .stillMissing ⟨freshId, name, ch.branches, ch.stepId⟩ (some written)
  | .noBranches => .noBranch (some written)

end Choice

namespace Conversation

/-- Takes an answer. One to a question that is not pending changes nothing. -/
def resolve (c : Conversation) (ch : Choice) (freshId : String) : Resumption × Conversation :=
  match c.take? ch.interceptorId with
  | none => (.stale, c)
  | some (_, c) =>
    if ch.value = Choice.defaultValue then (ch.resumeByDefault, c)
    else
      let written := Variable.text ch.variableName ch.value
      let c := c.setVariable written
      (ch.resumeUnder c.store written freshId, c)

end Conversation

end Dialogue
