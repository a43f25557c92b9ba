import Dialogue.Flow.Step

/-! How a delivery is paced. A run waits at pauses, each of which tells what is left to do of the
turn in delivery, and a timing says how long each pause takes. -/

namespace Dialogue

/-- Where a delivery run waits. -/
inductive Pause where
  | unstarted
  | beforeTurn (id : StepId) (components : List Component)
  | beforeComponent (c : Component) (rest : List Component)
  | beforeReveal (c : Component) (rest : List Component)
  | beforeCharacter (c : Component) (ch : Char) (chars : List Char) (rest : List Component)
  deriving DecidableEq, Repr

/-- Lengths of pauses in milliseconds. The pause before a character is drawn between bounds. -/
structure Timing where
  preTurn : Nat := 600
  between : Nat := 300
  prompt : Nat := 150
  card : Nat := 400
  characterLow : Nat := 15
  characterHigh : Nat := 35
  deriving DecidableEq, Repr, Inhabited

namespace Timing

def standard : Timing := {}

/-- The same pause before every character. -/
def withCharacter (t : Timing) (pause : Nat) : Timing :=
  { t with characterLow := pause, characterHigh := pause }

/-- A pause between two bounds before every character. -/
def withCharacterRange (t : Timing) (a b : Nat) : Timing :=
  { t with characterLow := min a b, characterHigh := max a b }

/-- The pause before every character where the bounds leave no choice. -/
def fixedCharacter? (t : Timing) : Option Nat :=
  if t.characterHigh ≤ t.characterLow then some t.characterLow else none

/-- The pause before a character, by a number drawn. -/
def character (t : Timing) (draw : Nat) : Nat :=
  t.characterLow + draw % (t.characterHigh - t.characterLow + 1)

/-- How long a pause takes. -/
def duration (t : Timing) (draw : Nat) : Pause → Nat
  | .unstarted => 0
  | .beforeTurn .. => t.preTurn
  | .beforeComponent .. => t.between
  | .beforeReveal c _ => if c.isPrompt then t.prompt else t.card
  | .beforeCharacter .. => t.character draw

theorem character_eq_of_fixedCharacter? {t : Timing} {pause : Nat}
    (h : t.fixedCharacter? = some pause) (draw : Nat) : t.character draw = pause := by
  simp only [fixedCharacter?] at h
  split at h
  · next hle =>
    cases h
    simp [character, Nat.sub_eq_zero_of_le hle, Nat.mod_one]
  · cases h

theorem character_mem {t : Timing} (h : t.characterLow ≤ t.characterHigh) (draw : Nat) :
    t.characterLow ≤ t.character draw ∧ t.character draw ≤ t.characterHigh := by
  have : draw % (t.characterHigh - t.characterLow + 1) < t.characterHigh - t.characterLow + 1 :=
    Nat.mod_lt _ (Nat.succ_pos _)
  simp only [character]
  omega

end Timing

end Dialogue
