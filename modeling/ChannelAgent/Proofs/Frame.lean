import ChannelAgent.Frame
import ChannelAgent.Proofs.Json.Reading
import ChannelAgent.Proofs.Text.Base64

set_option autoImplicit false

namespace ChannelAgent

open Json

namespace Body

def encoded (b : Body) : String := String.ofList (Base64.encode b.value)

theorem decode_encoded (b : Body) : Base64.decode? b.encoded.toList = some b.value := by
  rw [encoded, String.toList_ofList, Base64.decode_encode]

def toValue (b : Body) : Value :=
  .object [("type_url", .string b.typeUrl), ("value", .string b.encoded)]

theorem write_eq (b : Body) :
    b.write =
      writeObject [("type_url", quoteString b.typeUrl), ("value", quoteString b.encoded)] := by
  rw [write, Base64.quote_encode, encoded]

theorem reads_write (b : Body) (depth : Nat) : Reads (decoder.read (depth + 1)) b.write b := by
  rw [write_eq]
  refine reads_record ⟨_, _, rfl, List.not_mem_nil, reads_storing (reads_string _ _), ?_⟩
  refine ⟨_, _, rfl, by simp, reads_storing (reads_refine (reads_string _ _) b.decode_encoded), ?_⟩
  rfl

theorem reads_toValue (b : Body) (depth : Nat) :
    Reads (Json.value (depth + 1)) b.write b.toValue := by
  rw [write_eq]
  refine reads_value_object [("type_url", quoteString b.typeUrl, .string b.typeUrl),
    ("value", quoteString b.encoded, .string b.encoded)] ?_
  simp [reads_value_string]

theorem ofValue_toValue (b : Body) : decoder.ofValue? b.toValue = some b := by
  change record.ofMembers? [] record.initial _ = _
  rw [ofMembers_field _ _ rfl List.not_mem_nil (ofValue_storing rfl),
    ofMembers_field _ _ rfl (by simp)
      (ofValue_storing (ofValue_refine (x := b.encoded) rfl b.decode_encoded))]
  rfl

end Body

namespace Message

/-- The members of a message: their names, their texts and what they are buffered as. -/
def buffered (m : Message) : List (String × List Char × Value) :=
  ("labels", writeObject (m.labels.entries.map fun e => (e.1, quoteString e.2)),
    .object (m.labels.entries.map fun e => (e.1, .string e.2))) ::
    match m.body with
    | some b => [("body", b.write, b.toValue)]
    | none => []

theorem members_eq (m : Message) : m.members = m.buffered.map fun w => (w.1, w.2.1) := by
  obtain ⟨labels, body⟩ := m
  cases body <;> rfl

/-- A label with its text and what it is read as. -/
theorem reads_labels (l : Labels) (depth : Nat) :
    Reads ((Decoder.dictionary .string).read (depth + 1))
      (writeObject (l.entries.map fun e => (e.1, quoteString e.2))) l.entries := by
  have reads : ∀ w ∈ l.entries.map fun e => (e.1, quoteString e.2, e.2),
      Reads (Decoder.string.read depth) w.2.1 w.2.2 :=
    List.forall_mem_map.2 fun e _ => reads_string depth e.2
  simpa [Function.comp_def] using reads_dictionary _ reads

theorem reads_labelsValue (l : Labels) (depth : Nat) :
    Reads (value (depth + 1)) (writeObject (l.entries.map fun e => (e.1, quoteString e.2)))
      (.object (l.entries.map fun e => (e.1, .string e.2))) := by
  have reads : ∀ w ∈ l.entries.map fun e => (e.1, quoteString e.2, Value.string e.2),
      Reads (value depth) w.2.1 w.2.2 :=
    List.forall_mem_map.2 fun e _ => reads_value_string depth e.2
  simpa [Function.comp_def] using reads_value_object _ reads

theorem ofValue_labels (entries : List (String × String)) :
    (Decoder.dictionary .string).ofValue? (.object (entries.map fun e => (e.1, .string e.2))) =
      some entries := by
  change List.mapM _ _ = _
  induction entries with
  | nil => rfl
  | cons e entries ih =>
    rw [List.map_cons, List.mapM_cons, ih]
    rfl

/-- The message that two members give. -/
theorem filled (m : Message) :
    { { empty with labels := .ofList m.labels.entries } with body := m.body } = m := by
  rw [Labels.ofList_entries]

theorem reads_write (m : Message) (depth : Nat) :
    Reads (decoder.read (depth + 2)) (writeObject m.members) m := by
  obtain ⟨labels, body⟩ := m
  have stored := reads_labels labels depth
  cases body with
  | none =>
    refine reads_record ⟨_, _, rfl, List.not_mem_nil, reads_orLacking (reads_storing stored), ?_⟩
    exact congrArg some (filled ⟨labels, none⟩)
  | some b =>
    refine reads_record ⟨_, _, rfl, List.not_mem_nil, reads_orLacking (reads_storing stored), ?_⟩
    have present := reads_optional (b.write_eq ▸ b.reads_write depth)
    refine ⟨_, _, rfl, by simp, reads_orLacking (reads_storing (b.write_eq ▸ present)), ?_⟩
    exact congrArg some (filled ⟨labels, some b⟩)

theorem reads_buffered (m : Message) (depth : Nat) :
    ∀ w ∈ m.buffered, Reads (value (depth + 1)) w.2.1 w.2.2 := by
  obtain ⟨labels, body⟩ := m
  cases body with
  | none => simpa [buffered] using reads_labelsValue labels depth
  | some b => simpa [buffered] using ⟨reads_labelsValue labels depth, b.reads_toValue depth⟩

theorem ofValue_buffered (m : Message) :
    decoder.ofValue? (.object (m.buffered.map fun w => (w.1, w.2.2))) = some m := by
  change record.ofMembers? [] record.initial _ = _
  obtain ⟨labels, body⟩ := m
  rw [buffered, List.map_cons, ofMembers_field _ _ rfl List.not_mem_nil
    (ofValue_orLacking (ofValue_storing (ofValue_labels labels.entries)))]
  cases body with
  | none => exact congrArg some (filled ⟨labels, none⟩)
  | some b =>
    have present : (Decoder.optional Body.decoder).ofValue? b.toValue = some (some b) :=
      congrArg (Option.map some) b.ofValue_toValue
    rw [List.map_cons, ofMembers_field _ _ rfl (by simp)
      (ofValue_orLacking (ofValue_storing present))]
    exact congrArg some (filled ⟨labels, some b⟩)

end Message

namespace Frame

def tag : Frame → String
  | .opening .. => "open"
  | .message _ => "message"
  | .error _ => "error"

/-- The members of a frame behind its tag, as those of a message. -/
def buffered : Frame → List (String × List Char × Value)
  | .opening channel regional =>
    [("channel", quoteString channel, .string channel),
      ("regional", writeBool regional, .bool regional)]
  | .message m => m.buffered
  | .error text => [("message", quoteString text, .string text)]

theorem write_eq (f : Frame) :
    f.write = String.ofList (writeObject
      ((Variants.tagName, quoteString f.tag) :: f.buffered.map fun w => (w.1, w.2.1))) := by
  cases f with
  | opening channel regional => rfl
  | message m =>
    rw [write, m.members_eq]
    rfl
  | error text => rfl

theorem untagged (f : Frame) : ∀ w ∈ f.buffered, w.1 ≠ Variants.tagName := by
  cases f with
  | opening channel regional => simp [buffered, Variants.tagName]
  | message m =>
    obtain ⟨labels, body⟩ := m
    cases body <;> simp [buffered, Message.buffered, Variants.tagName]
  | error text => simp [buffered, Variants.tagName]

theorem reads_buffered (f : Frame) (depth : Nat) :
    ∀ w ∈ f.buffered, Reads (value (depth + 1)) w.2.1 w.2.2 := by
  cases f with
  | opening channel regional => simp [buffered, reads_value_string, reads_value_bool]
  | message m => exact m.reads_buffered depth
  | error text => simp [buffered, reads_value_string]

/-- The variant of the tag gives the frame back. -/
theorem decodes (f : Frame) :
    ∃ decode, variants.variant? f.tag = some decode ∧
      decode (.object (f.buffered.map fun w => (w.1, w.2.2))) = some f := by
  cases f with
  | opening channel regional =>
    refine ⟨_, rfl, ?_⟩
    change openingRecord.ofMembers? [] openingRecord.initial _ = _
    rw [buffered, List.map_cons, ofMembers_field _ _ rfl List.not_mem_nil (ofValue_storing rfl),
      List.map_cons, ofMembers_field _ _ rfl (by simp) (ofValue_storing rfl)]
    rfl
  | message m => exact ⟨_, rfl, congrArg (Option.map Frame.message) m.ofValue_buffered⟩
  | error text =>
    refine ⟨_, rfl, ?_⟩
    change errorRecord.ofMembers? [] errorRecord.initial _ = _
    rw [buffered, List.map_cons, ofMembers_field _ _ rfl List.not_mem_nil (ofValue_storing rfl)]
    rfl

theorem parse_write (f : Frame) : parse f.write = .ok f := by
  obtain ⟨decode, known, decoded⟩ := f.decodes
  rw [write_eq]
  exact parseText_of_reads (reads_variant _ known f.untagged (f.reads_buffered 125) decoded)

/-- Every frame is read back from its text as it was, and so is every message on its own. So no two
frames have the same text. -/
theorem read_back_as_written :
    (∀ f : Frame, parse f.write = .ok f) ∧ (∀ m : Message, Message.parse m.write = .ok m) ∧
      Function.Injective write := by
  refine ⟨parse_write, fun m => parseText_of_reads (m.reads_write 125), ?_⟩
  intro f g same
  have again := congrArg parse same
  rw [parse_write, parse_write] at again
  exact Except.ok.inj again

end Frame

end ChannelAgent
