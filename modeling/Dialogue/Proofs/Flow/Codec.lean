import Dialogue.Flow.Codec
import Dialogue.Proofs.Flow.Graph
import Dialogue.Proofs.Json.Decode

/-! Flows and their documents. What is printed of a flow reads back as the flow, and where the flow
can be indexed, its text gives the graph. -/

namespace Dialogue

open Decoder (reads_string reads_bool reads_json reads_list)

theorem Field.reads_optionalMember {name : String} {value : Option String}
    {members : List (String × Json)}
    (hmembers : members.filter (·.1 == name) = Json.optionalMember name value) :
    (Field.optional name .string).Reads members value := by
  refine Field.reads_optional (hmembers.trans ?_) reads_string nofun
  cases value <;> rfl

/-! ### Each part reads back -/

namespace Guard

theorem reads (g : Guard) : decode.Reads g.toJson g := by
  refine Shape.Reads.decoder (((Shape.reads_pure Guard.mk).field ?_).field ?_) _
  · exact Field.reads_required rfl (reads_string g.name)
  · exact Field.reads_required rfl (reads_string g.value)

end Guard

namespace Branch

theorem reads (b : Branch) : decode.Reads b.toJson b := by
  obtain ⟨id, isDefault, label, guard⟩ := b
  refine Shape.Reads.decoder
    (((((Shape.reads_pure Branch.mk).field ?_).field ?_).field ?_).field ?_) _
  · refine Field.reads_required ?_ (reads_string id)
    cases label <;> cases guard <;> rfl
  · refine Field.reads_defaulted ?_ (reads_bool isDefault)
    cases label <;> cases guard <;> rfl
  · refine Field.reads_optionalMember ?_
    cases label <;> cases guard <;> rfl
  · refine Field.reads_optional ?_ Guard.reads nofun
    cases label <;> cases guard <;> rfl

end Branch

namespace Component

theorem reads_content (content : Json.Canonical) : decodeContent.Reads content.value content := by
  have hread := (reads_json content.value).map Json.toCanonical
  obtain ⟨value, hvalue⟩ := content
  have hcanonical : value.toCanonical = ⟨value, hvalue⟩ := by
    simp only [Json.toCanonical, hvalue]
  rwa [hcanonical] at hread

theorem reads (c : Component) : decode.Reads c.toJson c := by
  cases c with
  | message id text =>
    refine Union.reads_object rfl (by simp) (((Shape.reads_pure message).field ?_).field ?_)
    · exact Field.reads_required rfl (reads_string id)
    · exact Field.reads_required rfl (reads_string text)
  | info id title body =>
    refine Union.reads_object rfl (by simp)
      ((((Shape.reads_pure info).field ?_).field ?_).field ?_)
    · exact Field.reads_required rfl (reads_string id)
    · exact Field.reads_defaulted rfl (reads_string title)
    · exact Field.reads_required rfl (reads_string body)
  | prompt id label handle =>
    refine Union.reads_object rfl (by cases handle <;> simp [Json.optionalMember])
      ((((Shape.reads_pure prompt).field ?_).field ?_).field ?_)
    · refine Field.reads_required ?_ (reads_string id)
      cases handle <;> rfl
    · refine Field.reads_required ?_ (reads_string label)
      cases handle <;> rfl
    · refine Field.reads_optionalMember ?_
      cases handle <;> rfl
  | card id title content =>
    refine Union.reads_object rfl (by simp)
      ((((Shape.reads_pure card).field ?_).field ?_).field ?_)
    · exact Field.reads_required rfl (reads_string id)
    · exact Field.reads_defaulted rfl (reads_string title)
    · exact Field.reads_defaulted rfl (reads_content content)

end Component

namespace Step

theorem reads (s : Step) : decode.Reads s.toJson s := by
  cases s with
  | start id =>
    refine Union.reads_object rfl (by simp) ((Shape.reads_pure start).field ?_)
    exact Field.reads_required rfl (reads_string id)
  | turn id components =>
    refine Union.reads_object rfl (by simp) (((Shape.reads_pure turn).field ?_).field ?_)
    · exact Field.reads_required rfl (reads_string id)
    · exact Field.reads_defaulted rfl (reads_list fun c _ => c.reads)
  | userTurn id label trigger =>
    refine Union.reads_object rfl (by cases trigger <;> simp [Json.optionalMember])
      ((((Shape.reads_pure userTurn).field ?_).field ?_).field ?_)
    · refine Field.reads_required ?_ (reads_string id)
      cases trigger <;> rfl
    · refine Field.reads_required ?_ (reads_string label)
      cases trigger <;> rfl
    · refine Field.Reads.orNamed (Field.reads_optionalMember ?_) ?_
      · cases trigger <;> rfl
      · cases trigger <;> simp [Json.optionalMember]
  | condition id branches =>
    refine Union.reads_object rfl (by simp) (((Shape.reads_pure condition).field ?_).field ?_)
    · exact Field.reads_required rfl (reads_string id)
    · exact Field.reads_defaulted rfl (reads_list fun b _ => b.reads)
  | note id text =>
    refine Union.reads_object rfl (by simp) (((Shape.reads_pure note).field ?_).field ?_)
    · exact Field.reads_required rfl (reads_string id)
    · exact Field.reads_defaulted rfl (reads_string text)

end Step

namespace Connection

theorem reads (c : Connection) : decode.Reads c.toJson c := by
  obtain ⟨source, target, handle⟩ := c
  refine Shape.Reads.decoder
    ((((Shape.reads_pure Connection.mk).field ?_).field ?_).field ?_) _
  · refine Field.reads_required ?_ (reads_string source)
    cases handle <;> rfl
  · refine Field.reads_required ?_ (reads_string target)
    cases handle <;> rfl
  · refine Field.reads_optionalMember ?_
    cases handle <;> rfl

end Connection

namespace Flow

theorem reads (f : Flow) : decode.Reads f.toJson f := by
  refine Shape.Reads.decoder (((Shape.reads_pure Flow.mk).field ?_).field ?_) _
  · exact Field.reads_defaulted rfl (reads_list fun s _ => s.reads)
  · exact Field.reads_defaulted rfl (reads_list fun c _ => c.reads)

end Flow

/-! ### The numbers in a flow's document -/

namespace Component

/-- The numbers that a component shows: those in the content of a card. -/
def numbers : Component → List Number
  | card _ _ content => content.value.numbers
  | message .. | info .. | prompt .. => []

theorem numbers_toJson (c : Component) : c.toJson.numbers = c.numbers := by
  cases c with
  | message id text => rfl
  | info id title body => rfl
  | prompt id label handle => cases handle <;> rfl
  | card id title content =>
    simp [toJson, numbers, Json.numbers, Json.memberNumbers]

end Component

namespace Branch

theorem numbers_toJson (b : Branch) : b.toJson.numbers = [] := by
  obtain ⟨id, isDefault, label, guard⟩ := b
  cases label <;> cases guard <;> rfl

end Branch

namespace Connection

theorem numbers_toJson (c : Connection) : c.toJson.numbers = [] := by
  obtain ⟨source, target, handle⟩ := c
  cases handle <;> rfl

end Connection

namespace Step

def numbers (s : Step) : List Number := s.components.flatMap Component.numbers

theorem numbers_toJson (s : Step) : s.toJson.numbers = s.numbers := by
  cases s with
  | start id => rfl
  | turn id components =>
    simp [toJson, numbers, Step.components, Json.numbers, Json.memberNumbers,
      Json.itemNumbers_map Component.numbers_toJson]
  | userTurn id label trigger => cases trigger <;> rfl
  | condition id branches =>
    simp [toJson, numbers, Step.components, Json.numbers, Json.memberNumbers,
      Json.itemNumbers_map Branch.numbers_toJson]
  | note id text => rfl

end Step

namespace Flow

def numbers (f : Flow) : List Number := f.steps.flatMap Step.numbers

theorem numbers_toJson (f : Flow) : f.toJson.numbers = f.numbers := by
  simp [toJson, numbers, Json.numbers, Json.memberNumbers,
    Json.itemNumbers_map Step.numbers_toJson, Json.itemNumbers_map Connection.numbers_toJson]

end Flow

/-! ### Texts and graphs -/

namespace Flow

/-- A flow reads back from its text, if its cards hold integers of 64 bits for numbers and its
document nests no deeper than texts may. If it can be indexed, its text gives its graph. -/
theorem ofText_toText {f : Flow} (hnumbers : ∀ n ∈ f.numbers, n.FitsWord)
    (hnesting : f.toJson.nesting ≤ 127) :
    Flow.ofText f.toText = .ok f ∧
      ∀ g, FlowGraph.ofFlow f = .ok g → FlowGraph.ofText f.toText = .ok g ∧ g.flow = f := by
  have hread : Flow.ofText f.toText = .ok f :=
    f.reads.ofText (by rwa [numbers_toJson]) hnesting
  refine ⟨hread, fun g hg => ⟨?_, FlowGraph.flow_of_ofFlow hg⟩⟩
  rw [FlowGraph.ofText, hread]
  show (FlowGraph.ofFlow f).mapError LoadError.flow = .ok g
  rw [hg]
  rfl

/-- A flow with steps and components of every kind, and quotes and numbers in a card. -/
theorem ofText_toText_tour :
    let content := Json.toCanonical
      (.object [("count", .number (.int (-3))), ("said", .array [.string "\"so\"\n", .null])])
    let components : List Component :=
      [.message "m" "Hi", .info "i" "" "More", .prompt "p" "Go" (some "h"), .card "c" "" content]
    let f : Flow :=
      ⟨[.start "s", .turn "t" components, .userTurn "u" "Help" (some "help"),
          .condition "q" [⟨"b", true, none, some ⟨"mood", "good"⟩⟩], .note "n" "later"],
        [⟨"s", "t", none⟩, ⟨"t", "u", some "h"⟩]⟩
    (∀ n ∈ f.numbers, n.FitsWord) ∧ f.toJson.nesting ≤ 127 ∧ Flow.ofText f.toText = .ok f ∧
      ∃ g, FlowGraph.ofFlow f = .ok g ∧ FlowGraph.ofText f.toText = .ok g ∧ g.flow = f := by
  intro content components f
  have hnumbers : ∀ n ∈ f.numbers, n.FitsWord := by decide
  have hnesting : f.toJson.nesting ≤ 127 := by decide
  obtain ⟨g, hg⟩ := @FlowGraph.exists_ofFlow f (by decide)
  obtain ⟨hread, hgraph⟩ := ofText_toText hnumbers hnesting
  exact ⟨hnumbers, hnesting, hread, g, hg, hgraph g hg⟩

end Flow

end Dialogue
