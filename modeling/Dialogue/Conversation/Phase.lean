import Dialogue.Json.Decode

/-! What a conversation is doing. -/

namespace Dialogue

inductive Phase where
  | idle
  | thinking
  | streaming
  | instantReveal
  | pausedBetween
  | awaitingInterceptor
  | stopped
  deriving DecidableEq, Repr, Inhabited

namespace Phase

def name : Phase → String
  | idle => "idle"
  | thinking => "thinking"
  | streaming => "streaming"
  | instantReveal => "instant_reveal"
  | pausedBetween => "paused_between"
  | awaitingInterceptor => "awaiting_interceptor"
  | stopped => "stopped"

/-- The phase as a reader sees it announced. -/
def title : Phase → String
  | idle => "Idle"
  | thinking => "Thinking"
  | streaming => "Streaming"
  | instantReveal => "InstantReveal"
  | pausedBetween => "PausedBetween"
  | awaitingInterceptor => "AwaitingInterceptor"
  | stopped => "Stopped"

/-- Whether the conversation seems to be typing. -/
def isPause : Phase → Bool
  | thinking | pausedBetween => true
  | _ => false

def all : List Phase :=
  [idle, thinking, streaming, instantReveal, pausedBetween, awaitingInterceptor, stopped]

def toJson (p : Phase) : Json := .string p.name

def decode : Decoder Phase := Decoder.word (all.map fun p => (p.name, p))

end Phase

end Dialogue
