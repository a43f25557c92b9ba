import Dialogue.Event.Basic

/-! Events as lines of text: the scope between brackets, and what happened. -/

namespace Dialogue.Event

/-- How the parts of a line are marked for a terminal. -/
structure Palette where
  scope : String
  body : String
  progress : String
  reset : String
  deriving DecidableEq, Repr

namespace Palette

/-- No marks at all. -/
def plain : Palette := ⟨"", "", "", ""⟩

/-- A green scope, and behind it cyan for text on its way and magenta for all else. -/
def colored : Palette := ⟨"\x1b[32m", "\x1b[35m", "\x1b[36m", "\x1b[0m"⟩

end Palette

/-- What a line says of an event: of text on its way the text alone. -/
def body : Event → String
  | streamProgress _ _ text => text
  | e => e.describe

/-- The line of an event. -/
def line (p : Palette) (e : Event) : String :=
  let mark := match e with
    | streamProgress .. => p.progress
    | _ => p.body
  String.join [p.scope, "[", e.scope, "]", p.reset, " ", mark, e.body, p.reset, "\n"]

end Dialogue.Event
