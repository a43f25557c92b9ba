import Dialogue.Event.Codec
import Dialogue.Proofs.Json.Decode

/-! Events and their documents. The record that a log keeps of an event has its tag apart from its
other members. The two put together again read back as the event, in whatever order an object
keeps its members, so events that differ leave records that differ. -/

namespace Dialogue

open Decoder (reads_string reads_nat reads_word)

/-! ### Each part reads back -/

theorem Run.reads (r : Run) : decode.Reads r.toJson r := (reads_nat "u64" r.number).map Run.mk

theorem Phase.reads (p : Phase) : decode.Reads p.toJson p := by
  cases p <;> exact reads_word rfl

theorem EntryKind.reads (k : EntryKind) : decode.Reads (.string k.name) k := by
  cases k <;> exact reads_word rfl

namespace Event

variable {members others : List (String × Json)}

theorem reads_runField {r : Run} (hperm : others.Perm members)
    (hmembers : members.filter (·.1 == "run") = [("run", r.toJson)]) : runField.Reads others r :=
  Field.reads_required_of_perm hperm hmembers r.reads

theorem members_ne_event (e : Event) : ∀ m ∈ e.members, m.1 ≠ "event" := by
  cases e <;> simp [Event.members]

/-- The tag names the event's own variant, and its record is read from the event's members, in
whatever order they stand. -/
theorem exists_variant (e : Event) :
    ∃ v, variants.find? (·.tag == e.tag) = some v ∧
      ∀ others : List (String × Json), others.Perm e.members → v.shape.Reads others e := by
  cases e with
  | phaseChanged run phase =>
    refine ⟨_, rfl, fun others h => ((Shape.reads_pure phaseChanged).field ?_).field ?_⟩
    · exact reads_runField h rfl
    · exact Field.reads_required_of_perm h rfl phase.reads
  | stepCommitted run id kind =>
    refine ⟨_, rfl, fun others h => (((Shape.reads_pure stepCommitted).field ?_).field ?_).field ?_⟩
    · exact reads_runField h rfl
    · exact Field.reads_required_of_perm h rfl (reads_string id)
    · exact Field.reads_required_of_perm h rfl kind.reads
  | componentRevealed run id =>
    refine ⟨_, rfl, fun others h => ((Shape.reads_pure componentRevealed).field ?_).field ?_⟩
    · exact reads_runField h rfl
    · exact Field.reads_required_of_perm h rfl (reads_string id)
  | streamProgress run id text =>
    refine ⟨_, rfl, fun others h =>
      (((Shape.reads_pure streamProgress).field ?_).field ?_).field ?_⟩
    · exact reads_runField h rfl
    · exact Field.reads_required_of_perm h rfl (reads_string id)
    · exact Field.reads_required_of_perm h rfl (reads_string text)
  | interceptorRaised run id name step =>
    refine ⟨_, rfl, fun others h =>
      ((((Shape.reads_pure interceptorRaised).field ?_).field ?_).field ?_).field ?_⟩
    · exact reads_runField h rfl
    · exact Field.reads_required_of_perm h rfl (reads_string id)
    · exact Field.reads_required_of_perm h rfl (reads_string name)
    · exact Field.reads_required_of_perm h rfl (reads_string step)
  | variableUpdated name value =>
    refine ⟨_, rfl, fun others h => ((Shape.reads_pure variableUpdated).field ?_).field ?_⟩
    · exact Field.reads_required_of_perm h rfl (reads_string name)
    · exact Field.reads_required_of_perm h rfl (reads_string value)
  | noIntentMatch input =>
    refine ⟨_, rfl, fun others h => (Shape.reads_pure noIntentMatch).field ?_⟩
    exact Field.reads_required_of_perm h rfl (reads_string input)
  | stopped run truncated =>
    refine ⟨_, rfl, fun others h => ((Shape.reads_pure stopped).field ?_).field ?_⟩
    · exact reads_runField h rfl
    · exact Field.reads_nullable (Field.filter_eq_singleton_of_perm h rfl) reads_string nofun
  | diagnostic scope message =>
    refine ⟨_, rfl, fun others h => ((Shape.reads_pure diagnostic).field ?_).field ?_⟩
    · exact Field.reads_required_of_perm h rfl (reads_string scope)
    · exact Field.reads_required_of_perm h rfl (reads_string message)

theorem reads_of_perm (e : Event) (hperm : members.Perm (("event", .string e.tag) :: e.members)) :
    decode.Reads (.object members) e := by
  obtain ⟨v, hv, hrecord⟩ := e.exists_variant
  exact Union.reads_of_perm hperm hv e.members_ne_event hrecord

/-! ### What a record keeps -/

/-- The record names `tag` as the type of its event, and keeps `rest` as the metadata. -/
structure IsRecord (record tag : Json) (rest : List (String × Json)) : Prop where
  type_eq : record.get? "type" = some tag
  metadata_eq : record.get? "metadata" = some (.object rest)

variable {e : Event} {time : String} {tag : Json} {rest : List (String × Json)}

theorem remove_event (e : Event) :
    e.toJson.remove "event" = (.string e.tag, .object e.members) := by
  have hkept : e.members.filter (fun m => m.1 != "event") = e.members :=
    List.filter_eq_self.mpr fun m hm => by simpa using e.members_ne_event m hm
  have htag : e.toJson.get? "event" = some (.string e.tag) := by
    cases e <;> rfl
  rw [toJson] at htag ⊢
  rw [Json.remove, htag]
  simp [hkept]

theorem isRecord_record (e : Event) (time : String) :
    IsRecord (e.record time) (.string e.tag) e.members := by
  rw [record, e.remove_event]
  exact ⟨rfl, rfl⟩

theorem IsRecord.eq (h : IsRecord (e.record time) tag rest) :
    tag = .string e.tag ∧ rest = e.members := by
  have hrecord := isRecord_record e time
  have htag := Option.some.inj (h.type_eq.symm.trans hrecord.type_eq)
  have hrest := Option.some.inj (h.metadata_eq.symm.trans hrecord.metadata_eq)
  exact ⟨htag, Json.object.inj hrest⟩

/-- The type of a record, put back under the key `event` among the metadata, gives an object that
reads as the event. -/
theorem IsRecord.decode_eq (h : IsRecord (e.record time) tag rest)
    (hperm : members.Perm (("event", tag) :: rest)) : decode.ofJson (.object members) = .ok e := by
  obtain ⟨rfl, rfl⟩ := h.eq
  exact e.reads_of_perm hperm .value trivial

/-- Nothing of an event is lost in its record. It keeps a type and metadata, without the key
`event`; the two put together in any order decode as the event; and no other event has a record of
the same type and the same metadata. -/
theorem record_lossless (e : Event) (time : String) :
    ∃ tag rest, IsRecord (e.record time) tag rest ∧ (∀ m ∈ rest, m.1 ≠ "event") ∧
      (∀ members : List (String × Json), members.Perm (("event", tag) :: rest) →
        decode.ofJson (.object members) = .ok e) ∧
      ∀ (other : Event) (time' : String) (rest' : List (String × Json)),
        IsRecord (other.record time') tag rest' → rest'.Perm rest → other = e := by
  have hrecord := isRecord_record e time
  refine ⟨_, _, hrecord, e.members_ne_event, fun members hperm => hrecord.decode_eq hperm,
    fun other time' rest' hother hperm => ?_⟩
  have he := hrecord.decode_eq (hperm.cons ("event", .string e.tag))
  have hback := hother.decode_eq (.refl _)
  exact Except.ok.inj (hback.symm.trans he)

example :
    decode.ofJson (.object [("component_id", .string "c1"), ("event", .string "component_revealed"),
      ("run", .ofNat 3)]) = .ok (.componentRevealed ⟨3⟩ "c1") := by
  rfl

end Event

end Dialogue
