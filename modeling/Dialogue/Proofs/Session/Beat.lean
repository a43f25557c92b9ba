import Dialogue.Session.Work

/-! What a run does, beat by beat. A beat is one change that a run makes to its conversation at a
pause, together with what it announces of it; all that a run does up to its next pause is made of
beats. -/

namespace Dialogue

namespace Pause

/-- Where a run goes on behind a component: at the next one of its turn, or at the queue. -/
def behind : List Component → Pause
  | [] => unstarted
  | d :: rest => beforeComponent d rest

end Pause

namespace Conversation

variable (run : Run)

def progress (c : Conversation) (d : Component) : List Event :=
  c.streaming.toList.map fun s => .streamProgress run d.id s.text

/-- One change that a run makes at a pause, what it announces of it, and where it is then. -/
inductive Beat : Conversation → Pause → List Event → Conversation → Option Pause → Prop where
  | commit (c e rest) (hqueue : c.queue = e :: rest)
      (hturn : ∀ id components, e ≠ .step (.turn id components)) :
      Beat c .unstarted (e.announced run) { c.commit e with queue := rest } (some .unstarted)
  | take (c id components rest) (hqueue : c.queue = .step (.turn id components) :: rest) :
      Beat c .unstarted (enter run { c with queue := rest } .thinking).2
        (enter run { c with queue := rest } .thinking).1 (some (.beforeTurn id components))
  | settle (c) (hqueue : c.queue = []) :
      Beat c .unstarted (settle run c).events (settle run c).state none
  | openTurn (c id components) :
      Beat c (.beforeTurn id components) (Entry.announced run (.step (.turn id components)))
        ({ c with isThinking := false }.commit (.step (.turn id components)))
        (some (.behind components))
  | pause (c d rest) :
      Beat c (.beforeComponent d rest) (enter run c .pausedBetween).2
        (enter run c .pausedBetween).1 (some (.beforeComponent d rest))
  | beginText (c d rest ch chars) (htext : d.characters = ch :: chars) :
      Beat c (.beforeComponent d rest) [.phaseChanged run .streaming] (c.beginStream d.id)
        (some (.beforeCharacter d ch chars rest))
  | beginWhole (c d rest) (htext : d.characters = []) :
      Beat c (.beforeComponent d rest) (enter run c .instantReveal).2
        (enter run c .instantReveal).1 (some (.beforeReveal d rest))
  | reveal (c d rest) :
      Beat c (.beforeReveal d rest) [.componentRevealed run d.id] (c.reveal d.id)
        (some (.behind rest))
  | push (c d ch ch' chars rest) :
      Beat c (.beforeCharacter d ch (ch' :: chars) rest) ((c.push ch).progress run d) (c.push ch)
        (some (.beforeCharacter d ch' chars rest))
  | finish (c d ch rest) :
      Beat c (.beforeCharacter d ch [] rest)
        ((c.push ch).progress run d ++ [.componentRevealed run d.id]) (c.push ch).finishStream
        (some (.behind rest))

inductive Beats : Conversation → Pause → List Event → Conversation → Option Pause → Prop where
  | last {c p events c' p'} (beat : Beat run c p events c' p') : Beats c p events c' p'
  | next {c p events c' p' more c'' p''} (beat : Beat run c p events c' (some p'))
      (rest : Beats c' p' more c'' p'') : Beats c p (events ++ more) c'' p''

/-- What every beat keeps is kept by beats in a row. -/
theorem Beats.invariant {I : Conversation → Option Pause → Prop}
    (hbeat : ∀ {c p events c' p'}, Beat run c p events c' p' → I c (some p) → I c' p')
    {c c' : Conversation} {p : Pause} {events : List Event} {p' : Option Pause}
    (h : Beats run c p events c' p') (hstart : I c (some p)) : I c' p' := by
  induction h with
  | last beat => exact hbeat beat hstart
  | next beat _ ih => exact ih (hbeat beat hstart)

theorem beats_drain (c : Conversation) (queue : List Entry) :
    Beats run { c with queue } .unstarted (drain run c queue).events (drain run c queue).state
      (drain run c queue).pause := by
  fun_induction drain run c queue with
  | case1 c => exact .last (.settle _ rfl)
  | case2 c id components rest c' events h =>
      let taken := enter run { c with queue := rest } .thinking
      have htake : Beat run { c with queue := .step (.turn id components) :: rest } .unstarted
          taken.2 taken.1 (some (.beforeTurn id components)) :=
        .take _ id components rest rfl
      simp only [taken, h] at htake
      exact .last htake
  | case3 c e rest he ih => exact .next (.commit _ e rest rfl he) ih

theorem beats_begin (c : Conversation) (d : Component) (rest : List Component) :
    Beats run c (.beforeComponent d rest) (begin run c d rest).events (begin run c d rest).state
      (begin run c d rest).pause := by
  unfold begin
  split
  · next ch chars hd => exact .last (.beginText c d rest ch chars hd)
  · next hd => exact .last (.beginWhole c d rest hd)

theorem beats_proceed (c : Conversation) (previous : Component) (rest : List Component) :
    Beats run c (.behind rest) (proceed run c previous rest).events
      (proceed run c previous rest).state (proceed run c previous rest).pause := by
  cases rest with
  | nil => exact beats_drain run c c.queue
  | cons d rest =>
      simp only [proceed]
      split
      · exact beats_begin run c d rest
      · exact .last (.pause c d rest)

/-- From one pause to the next a run makes beats only. -/
theorem beats_resumeFrom (c : Conversation) (p : Pause) :
    Beats run c p (resumeFrom run c p).events (resumeFrom run c p).state
      (resumeFrom run c p).pause := by
  cases p with
  | unstarted => exact beats_drain run c c.queue
  | beforeTurn id components =>
      let opened := { c with isThinking := false }.commit (.step (.turn id components))
      refine .next (.openTurn c id components) ?_
      cases components with
      | nil => exact beats_drain run opened c.queue
      | cons d rest => exact beats_begin run opened d rest
  | beforeComponent d rest => exact beats_begin run c d rest
  | beforeReveal d rest => exact .next (.reveal c d rest) (beats_proceed run _ d rest)
  | beforeCharacter d ch chars rest =>
      cases chars with
      | nil => exact .next (.finish c d ch rest) (beats_proceed run _ d rest)
      | cons ch' chars => exact .last (.push c d ch ch' chars rest)

end Conversation

end Dialogue
