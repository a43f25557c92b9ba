import Dialogue.Flow.Codec
import Dialogue.Text.Distance
import Dialogue.Text.Lowercase

/-! Which user turn typed text means. A user turn scores the share of its words that the text
matches; the first with the highest score is taken, if it scores high enough. -/

namespace Dialogue

open Decimal (Binary64)

/-- When a match is accepted, and how long a word must be to count. -/
structure IntentConfig where
  threshold : Binary64
  minWordLength : Nat
  deriving DecidableEq, Repr

namespace IntentConfig

/-- Three tenths of the words, of at least three characters. -/
def standard : IntentConfig := ⟨.ofRatio false 3 10, 3⟩

instance : Inhabited IntentConfig := ⟨standard⟩

def shape : Shape IntentConfig :=
  ((Shape.pure IntentConfig.mk).field (.required "threshold" .real)).field
    (.required "min_token_len" (.nat "usize"))

def decode : Decoder IntentConfig := shape.decoder "struct IntentConfig"

end IntentConfig

/-- How many words out of how many were matched. -/
structure Score where
  matched : Nat
  total : Nat
  total_pos : 0 < total
  matched_le : matched ≤ total
  deriving DecidableEq, Repr

namespace Score

def zero : Score := ⟨0, 1, by decide, by decide⟩

def one : Score := ⟨1, 1, by decide, by decide⟩

instance : Inhabited Score := ⟨zero⟩

/-- Whether every word was matched. -/
def isFull (s : Score) : Bool := s.matched = s.total

/-- Whether `s` is below `t`, as fractions. -/
def isBelow (s t : Score) : Bool := s.matched * t.total < t.matched * s.total

/-- Whether the score, rounded, is at least a threshold. -/
def reaches (s : Score) (threshold : Binary64) : Bool :=
  threshold.atMostRatio s.matched s.total

def value (s : Score) : Binary64 := .ofRatio false s.matched s.total

end Score

/-- A user turn that text may mean. -/
structure Candidate where
  id : StepId
  label : String
  trigger : Option String
  deriving DecidableEq, Repr

namespace Candidate

/-- User turns alone can be meant. -/
def ofStep? : Step → Option Candidate
  | .userTurn id label trigger => some ⟨id, label, trigger⟩
  | _ => none

/-- Whether the text is the label or the trigger phrase, but for case and blanks around it. -/
def isNamedBy (c : Candidate) (input : String) : Bool :=
  Text.normalize input == Text.normalize c.label ||
    c.trigger.map Text.normalize == some (Text.normalize input)

/-- The words of the label and of the trigger phrase that are long enough to count. -/
def targets (c : Candidate) (minWordLength : Nat) : List String :=
  let label := Text.words (Text.normalize c.label)
  let trigger := (c.trigger.map fun t => Text.words (Text.normalize t)).getD []
  (label ++ trigger).filter fun w => minWordLength ≤ w.length

end Candidate

/-- A candidate that was found, and its score. -/
structure IntentMatch where
  id : StepId
  score : Score
  deriving DecidableEq, Repr

namespace IntentConfig

/-- Whether two words match: one is within the other, or they differ in one character. -/
def wordsMatch (word target : String) : Bool :=
  Text.occursIn word.toList target.toList || Text.occursIn target.toList word.toList ||
    Text.distance word target ≤ 1

/-- Scores a candidate: nothing for blank text, all for its label or trigger phrase, and otherwise
the share of its targets that match a word of the text. -/
def score (cfg : IntentConfig) (input : String) (c : Candidate) : Score :=
  if Text.normalize input = "" then .zero
  else if c.isNamedBy input then .one
  else
    let words := Text.words (Text.normalize input)
    let targets := c.targets cfg.minWordLength
    if h : targets.length = 0 then .zero
    else
      ⟨targets.countP fun t => words.any fun w => wordsMatch w t, targets.length,
        Nat.pos_of_ne_zero h, List.countP_le_length⟩

/-- The best of `best` and further candidates. A full score ends the search, an equal score
changes nothing, and the winner must reach the threshold. -/
def bestFrom (cfg : IntentConfig) (input : String) (best : Option IntentMatch) :
    List Candidate → Option IntentMatch
  | [] => best.filter fun m => m.score.reaches cfg.threshold
  | c :: rest =>
    let s := cfg.score input c
    if s.isFull then some ⟨c.id, s⟩
    else if best.all fun m => m.score.isBelow s then cfg.bestFrom input (some ⟨c.id, s⟩) rest
    else cfg.bestFrom input best rest

def best? (cfg : IntentConfig) (input : String) (cs : List Candidate) : Option IntentMatch :=
  cfg.bestFrom input none cs

/-- The best of a graph's user turns with the given ids. -/
def bestStep? (cfg : IntentConfig) (g : FlowGraph) (input : String) (ids : List StepId) :
    Option IntentMatch :=
  cfg.best? input ((ids.filterMap g.step?).filterMap Candidate.ofStep?)

end IntentConfig

end Dialogue
