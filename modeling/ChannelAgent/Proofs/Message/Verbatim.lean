import ChannelAgent.Proofs.Frame
import ChannelAgent.Proofs.Frame.Tagging
import ChannelAgent.Proofs.Json.Conversion
import ChannelAgent.Proofs.Json.Records
import ChannelAgent.Proofs.Text.Canonical

set_option autoImplicit false

namespace ChannelAgent.Verbatim

open Json

/-- A body with the string of its value. -/
structure Body where
  typeUrl : String
  value : String
  deriving DecidableEq

namespace Body

structure Parts where
  typeUrl : Option String
  value : Option String

def record : Record Parts Body where
  fields := [
    .storing "type_url" .string fun s p => { p with typeUrl := some s },
    .storing "value" .string fun s p => { p with value := some s }]
  initial := ⟨none, none⟩
  finish p := do some ⟨← p.typeUrl, ← p.value⟩

def decoder : Decoder Body := record.decoder

def write (b : Body) : List Char :=
  writeObject [("type_url", quoteString b.typeUrl), ("value", quoteString b.value)]

/-- The body with its bytes, if the string stands for bytes. -/
def body? (b : Body) : Option ChannelAgent.Body :=
  (Base64.decode? b.value.toList).map fun bytes => ⟨b.typeUrl, bytes⟩

def Parts.parts? (p : Parts) : Option ChannelAgent.Body.Parts :=
  match p.value with
  | none => some ⟨p.typeUrl, none⟩
  | some s => (Base64.decode? s.toList).map fun bytes => ⟨p.typeUrl, some bytes⟩

end Body

structure Message where
  labels : Labels
  body : Option Body
  deriving DecidableEq

namespace Message

def record : Record Message Message where
  fields := [
    (Field.storing "labels" (Decoder.dictionary .string)
      fun entries m => { m with labels := .ofList entries }).orLacking,
    (Field.storing "body" (Decoder.optional Body.decoder)
      fun body m => { m with body := body }).orLacking]
  initial := ⟨.empty, none⟩
  finish := some

def decoder : Decoder Message := record.decoder

def parse (text : String) : Except Fault Message := decoder.parseText text

def members (m : Message) : List (String × List Char) :=
  ("labels", writeObject (m.labels.entries.map fun e => (e.1, quoteString e.2))) ::
    match m.body with
    | some b => [("body", b.write)]
    | none => []

def write (m : Message) : String := String.ofList (writeObject m.members)

def message? (m : Message) : Option ChannelAgent.Message :=
  match m.body with
  | none => some ⟨m.labels, none⟩
  | some b => b.body?.map fun body => ⟨m.labels, some body⟩

end Message

inductive Frame
  | opening (channel : String) (regional : Bool)
  | message (m : Message)
  | error (text : String)

namespace Frame

open ChannelAgent.Frame (OpeningParts)

def openingRecord : Record OpeningParts (String × Bool) where
  fields := ChannelAgent.Frame.openingRecord.fields
  initial := ChannelAgent.Frame.openingRecord.initial
  finish p := do some (← p.channel, ← p.regional)

def errorRecord : Record (Option String) String where
  fields := ChannelAgent.Frame.errorRecord.fields
  initial := ChannelAgent.Frame.errorRecord.initial
  finish := id

def variants : Variants Frame := [
  ("open", fun v => (openingRecord.decoder.ofValue? v).map fun r => .opening r.1 r.2),
  ("message", fun v => (Message.decoder.ofValue? v).map .message),
  ("error", fun v => (errorRecord.decoder.ofValue? v).map .error)]

def parse (text : String) : Except Fault Frame := variants.decoder.parseText text

def frame? : Frame → Option ChannelAgent.Frame
  | .opening channel regional => some (.opening channel regional)
  | .message m => m.message?.map .message
  | .error text => some (.error text)

def write : Frame → String
  | .opening channel regional => (ChannelAgent.Frame.opening channel regional).write
  | .message m => String.ofList (writeObject (("type", quoteString "message") :: m.members))
  | .error text => (ChannelAgent.Frame.error text).write

end Frame

/-- A field whose value is kept, and the field that stores what it converts to. -/
theorem follows_storing {σ τ α β : Type} {convert : σ → Option τ} {culprit name : String}
    {f : α → Option β} {e : Decoder α} {d : Decoder β} {keep : α → σ → σ} {store : β → τ → τ}
    {mayLack : Bool} (follows : e.Follows (Converts f) d)
    (stores : ∀ x, Stores convert culprit name (keep x) ((f x).map store)) :
    Field.Follows convert culprit { Field.storing name e keep with mayLack }
      { Field.storing name d store with mayLack } where
  name := rfl
  mayLack := rfl
  decoder := follows.map fun x _ converts => converts ▸ stores x

theorem Body.follows : Body.decoder.Follows (Converts Body.body?) ChannelAgent.Body.decoder := by
  apply Record.Follows.decoder Body.Parts.parts? "value"
  have typeUrl (s : String) : Stores Body.Parts.parts? "value" "type_url"
      (fun p => { p with typeUrl := some s })
      (some fun p => { p with typeUrl := some s }) := by
    constructor
    · rintro ⟨typeUrl, _ | value⟩ b converted
      · obtain rfl := Option.some.inj converted
        rfl
      · obtain ⟨bytes, decoded, rfl⟩ := Option.map_eq_some_iff.1 converted
        simp [Body.Parts.parts?, decoded]
    · refine fun _ => ⟨rfl, ?_⟩
      rintro ⟨typeUrl, _ | value⟩ spoiled
      · cases spoiled
      · exact Option.map_eq_none_iff.2 (Option.map_eq_none_iff.1 spoiled)
  have value (s : String) : Stores Body.Parts.parts? "value" "value"
      (fun p => { p with value := some s })
      ((Base64.decode? s.toList).map fun bytes p => { p with value := some bytes }) := by
    refine ⟨fun a b converted => ?_, fun other => absurd rfl other⟩
    have same : a.typeUrl = b.typeUrl := by
      unfold Body.Parts.parts? at converted
      split at converted
      · obtain rfl := Option.some.inj converted
        rfl
      · obtain ⟨_, -, rfl⟩ := Option.map_eq_some_iff.1 converted
        rfl
    cases decoded : Base64.decode? s.toList <;> simp [Body.Parts.parts?, decoded, same]
  refine ⟨.cons (follows_storing (.refl _) typeUrl) (.cons
    (follows_storing (Decoder.follows_refine _ _) value) .nil), by decide, rfl, ?_, rfl⟩
  rintro ⟨_ | typeUrl, _ | value⟩
  · rfl
  · cases decoded : Base64.decode? value.toList <;>
      simp [Body.record, Body.Parts.parts?, ChannelAgent.Body.record, decoded]
  · rfl
  · cases decoded : Base64.decode? value.toList <;>
      simp [Body.record, Body.Parts.parts?, ChannelAgent.Body.record, Body.body?, decoded]

def Body.optional? : Option Body → Option (Option ChannelAgent.Body)
  | none => some none
  | some b => b.body?.map some

theorem Body.follows_optional :
    (Decoder.optional Body.decoder).Follows (Converts Body.optional?)
      (Decoder.optional ChannelAgent.Body.decoder) :=
  Body.follows.optional rfl fun _ _ converts => converts ▸ rfl

theorem Message.message?_eq (m : Message) :
    m.message? = (Body.optional? m.body).map fun body => ⟨m.labels, body⟩ := by
  obtain ⟨labels, _ | body⟩ := m
  · rfl
  · simp only [message?, Body.optional?, Option.map_map]
    rfl

theorem Message.follows :
    Message.decoder.Follows (Converts Message.message?) ChannelAgent.Message.decoder := by
  apply Record.Follows.decoder Message.message? "body"
  have labels (entries : List (String × String)) : Stores Message.message? "body" "labels"
      (fun m => { m with labels := .ofList entries })
      (some fun m => { m with labels := .ofList entries }) := by
    constructor
    · intro a b converted
      rw [Message.message?_eq, Option.map_eq_some_iff] at converted
      obtain ⟨body, decoded, rfl⟩ := converted
      rw [Message.message?_eq]
      simp only [decoded, Option.map_some]
    · refine fun _ => ⟨rfl, fun a spoiled => ?_⟩
      rw [Message.message?_eq, Option.map_eq_none_iff] at spoiled ⊢
      exact spoiled
  have body (read : Option Body) : Stores Message.message? "body" "body"
      (fun m => { m with body := read })
      ((Body.optional? read).map fun body m => { m with body := body }) := by
    refine ⟨fun a b converted => ?_, fun other => absurd rfl other⟩
    rw [Message.message?_eq, Option.map_eq_some_iff] at converted
    obtain ⟨_, -, rfl⟩ := converted
    rw [Message.message?_eq]
    cases Body.optional? read <;> rfl
  refine ⟨.cons (follows_storing (.refl _) labels)
    (.cons (follows_storing Body.follows_optional body) .nil), by decide, rfl, fun a => ?_, rfl⟩
  cases converted : a.message? <;> simp [Message.record, ChannelAgent.Message.record, converted]

/-- A variant is converted as the decoder is from which it is made. -/
theorem decodesTo_of_follows {α β γ δ : Type} {f : α → Option β} {g : γ → Option δ} {e : Decoder α}
    {d : Decoder β} {h : α → γ} {k : β → δ} (follows : e.Follows (Converts f) d)
    (same : ∀ x, g (h x) = (f x).map k) :
    Variants.DecodesTo g (fun v => (e.ofValue? v).map h) (fun v => (d.ofValue? v).map k) := by
  intro v
  simp only
  cases decoded : e.ofValue? v with
  | none =>
    rw [follows.refuses v decoded]
    rfl
  | some x =>
    have converts : d.ofValue? v = f x := follows.buffered v x decoded
    rw [converts]
    exact (same x).symm

theorem Frame.opening_follows : Frame.openingRecord.Follows some ""
    (fun r => some (.opening r.1 r.2)) ChannelAgent.Frame.openingRecord := by
  refine Record.follows_of_finish rfl (by decide) rfl ?_ rfl
  rintro ⟨_ | channel, _ | regional⟩ <;> rfl

theorem Frame.error_follows : Frame.errorRecord.Follows some ""
    (fun text => some (.error text)) ChannelAgent.Frame.errorRecord := by
  refine Record.follows_of_finish rfl (by decide) rfl ?_ rfl
  rintro (_ | text) <;> rfl

theorem Frame.follow :
    Variants.Follow Frame.frame? Frame.variants ChannelAgent.Frame.variants := by
  refine .cons ⟨rfl, fun v => ?_⟩ (.cons ⟨rfl, decodesTo_of_follows Message.follows fun _ => rfl⟩
    (.cons ⟨rfl, fun v => ?_⟩ .nil))
  · have decodes := decodesTo_of_follows (g := Frame.frame?) (h := fun r => Frame.opening r.1 r.2)
      (k := id) Frame.opening_follows.decoder (fun _ => rfl) v
    rwa [Option.map_id] at decodes
  · have decodes := decodesTo_of_follows (g := Frame.frame?) (h := Frame.error) (k := id)
      Frame.error_follows.decoder (fun _ => rfl) v
    rwa [Option.map_id] at decodes

/-- A body that stands for bytes is written with the string that it was read with. -/
theorem Body.write_of_body? {b : Body} {body : ChannelAgent.Body} (converted : b.body? = some body) :
    body.write = b.write ∧ body.typeUrl = b.typeUrl ∧ Base64.Canonical b.value.toList := by
  obtain ⟨bytes, decoded, rfl⟩ := Option.map_eq_some_iff.1 converted
  have same : ChannelAgent.Body.encoded ⟨b.typeUrl, bytes⟩ = b.value := by
    rw [ChannelAgent.Body.encoded, Base64.encode_decode decoded, String.ofList_toList]
  refine ⟨?_, rfl, Base64.decode_isSome.1 (Option.isSome_of_eq_some decoded)⟩
  rw [ChannelAgent.Body.write_eq, same]
  rfl

theorem Message.members_of_message? {w : Message} {m : ChannelAgent.Message}
    (converted : w.message? = some m) : m.members = w.members := by
  obtain ⟨labels, _ | body⟩ := w
  · obtain rfl := Option.some.inj converted
    rfl
  · obtain ⟨body', same, rfl⟩ := Option.map_eq_some_iff.1 converted
    simp only [ChannelAgent.Message.members, Message.members, (Body.write_of_body? same).1]

theorem Message.write_of_message? {w : Message} {m : ChannelAgent.Message}
    (converted : w.message? = some m) : m.write = w.write := by
  rw [ChannelAgent.Message.write, Message.write, members_of_message? converted]

theorem Frame.write_of_frame? {w : Frame} {f : ChannelAgent.Frame} (converted : w.frame? = some f) :
    f.write = w.write := by
  cases w with
  | opening channel regional =>
    obtain rfl := Option.some.inj converted
    rfl
  | message m =>
    obtain ⟨m', same, rfl⟩ := Option.map_eq_some_iff.1 converted
    simp only [ChannelAgent.Frame.write, Frame.write, Message.members_of_message? same]
  | error text =>
    obtain rfl := Option.some.inj converted
    rfl

/-- The string that the value member of a buffered body denotes. -/
inductive Body.Denotes : Value → String → Prop
  | object {ms : List (String × Value)} {s : String} (value : ("value", .string s) ∈ ms) :
      Denotes (.object ms) s
  | list {v : Value} {s : String} : Denotes (.list [v, .string s]) s

/-- The string that the value member of the body of a buffered message denotes. -/
inductive Message.Denotes : Value → String → Prop
  | object {ms : List (String × Value)} {v : Value} {s : String} (body : ("body", v) ∈ ms)
      (value : Body.Denotes v s) : Denotes (.object ms) s
  | list {v w : Value} {s : String} (value : Body.Denotes w s) : Denotes (.list [v, w]) s

/-- The same of a buffered frame, which also holds its tag. -/
inductive Frame.Denotes : Value → String → Prop
  | object {ms : List (String × Value)} {s : String} (value : Message.Denotes (.object ms) s) :
      Denotes (.object ms) s
  | list {tag : Value} {items : List Value} {s : String}
      (value : Message.Denotes (.list items) s) : Denotes (.list (tag :: items)) s

theorem string_eq_some {v : Value} {s : String} (decoded : Decoder.string.ofValue? v = some s) :
    v = .string s := by
  cases v with
  | string => rw [Option.some.inj decoded]
  | _ => cases decoded

theorem of_optional {α : Type} {d : Decoder α} {v : Value} {x : α}
    (decoded : d.optional.ofValue? v = some (some x)) : d.ofValue? v = some x := by
  cases v with
  | null => cases decoded
  | _ => simpa [Decoder.optional] using decoded

theorem Body.denotes {v : Value} {b : Body} (decoded : Body.decoder.ofValue? v = some b) :
    Body.Denotes v b.value := by
  cases v with
  | object ms =>
    have step : ∀ name v f store, (name, v) ∈ ms → Body.record.field? name = some f →
        f.decoder.ofValue? v = some store → ∀ p : Body.Parts,
          (∀ s ∈ p.value, ("value", .string s) ∈ ms) →
            ∀ s ∈ (store p).value, ("value", .string s) ∈ ms := by
      intro name v f store found known stored p kept
      have listed := List.mem_of_find?_eq_some known
      have named := Record.field?_name known
      simp only [Body.record, List.mem_cons, List.not_mem_nil, or_false] at listed
      rcases listed with rfl | rfl
      · obtain ⟨_, -, rfl⟩ := Record.ofValue_stored stored
        exact kept
      · obtain ⟨s, read, rfl⟩ := Record.ofValue_stored stored
        obtain rfl := string_eq_some read
        intro s' same
        obtain rfl := Option.some.inj same
        obtain rfl : "value" = name := named
        exact found
    obtain ⟨last, done, kept⟩ := Record.ofMembers_keeps (fun p : Body.Parts =>
      ∀ s ∈ p.value, ("value", .string s) ∈ ms) (fun _ absent => by cases absent) step decoded
    obtain ⟨typeUrl, _, done⟩ := Option.bind_eq_some_iff.1 done
    obtain ⟨value, held, done⟩ := Option.bind_eq_some_iff.1 done
    obtain rfl := Option.some.inj done
    exact .object (kept value held)
  | list items =>
    change record.ofElements? record.initial record.fields items = some b at decoded
    rcases items with _ | ⟨v, _ | ⟨w, _ | ⟨x, items⟩⟩⟩
    · cases decoded
    · obtain ⟨_, -, decoded⟩ := Record.ofElements_cons decoded
      cases decoded
    · obtain ⟨_, -, decoded⟩ := Record.ofElements_cons decoded
      obtain ⟨_, stored, done⟩ := Record.ofElements_cons decoded
      obtain ⟨s, read, rfl⟩ := Record.ofValue_stored stored
      obtain rfl := string_eq_some read
      obtain ⟨typeUrl, _, done⟩ := Option.bind_eq_some_iff.1 done
      obtain rfl := Option.some.inj done
      exact .list
    · obtain ⟨_, -, decoded⟩ := Record.ofElements_cons decoded
      obtain ⟨_, -, decoded⟩ := Record.ofElements_cons decoded
      cases decoded
  | _ => cases decoded

theorem Message.denotes {v : Value} {w : Message} {b : Body}
    (decoded : Message.decoder.ofValue? v = some w) (present : w.body = some b) :
    Message.Denotes v b.value := by
  cases v with
  | object ms =>
    have step : ∀ name v f store, (name, v) ∈ ms → Message.record.field? name = some f →
        f.decoder.ofValue? v = some store → ∀ m : Message,
          (∀ b ∈ m.body, Message.Denotes (.object ms) b.value) →
            ∀ b ∈ (store m).body, Message.Denotes (.object ms) b.value := by
      intro name v f store found known stored m kept
      have listed := List.mem_of_find?_eq_some known
      have named := Record.field?_name known
      simp only [Message.record, List.mem_cons, List.not_mem_nil, or_false] at listed
      rcases listed with rfl | rfl
      · obtain ⟨_, -, rfl⟩ := Record.ofValue_stored stored
        exact kept
      · obtain ⟨body, read, rfl⟩ := Record.ofValue_stored stored
        rintro b (rfl : body = some b)
        obtain rfl : "body" = name := named
        exact .object found (Body.denotes (of_optional read))
    obtain ⟨last, done, kept⟩ := Record.ofMembers_keeps (fun m : Message =>
      ∀ b ∈ m.body, Message.Denotes (.object ms) b.value) (fun _ absent => by cases absent) step
        decoded
    obtain rfl := Option.some.inj done
    exact kept b present
  | list items =>
    change record.ofElements? record.initial record.fields items = some w at decoded
    rcases items with _ | ⟨v, _ | ⟨v', _ | ⟨x, items⟩⟩⟩
    · obtain rfl := Option.some.inj decoded
      cases present
    · obtain ⟨_, stored, done⟩ := Record.ofElements_cons decoded
      obtain ⟨_, -, rfl⟩ := Record.ofValue_stored stored
      obtain rfl := Option.some.inj done
      cases present
    · obtain ⟨_, -, decoded⟩ := Record.ofElements_cons decoded
      obtain ⟨_, stored, done⟩ := Record.ofElements_cons decoded
      obtain ⟨body, read, rfl⟩ := Record.ofValue_stored stored
      obtain rfl := Option.some.inj done
      obtain rfl : body = some b := present
      exact .list (Body.denotes (of_optional read))
    · obtain ⟨_, -, decoded⟩ := Record.ofElements_cons decoded
      obtain ⟨_, -, decoded⟩ := Record.ofElements_cons decoded
      cases decoded
  | _ => cases decoded

theorem Message.Denotes.of_subset {ms more : List (String × Value)} {s : String}
    (denotes : Message.Denotes (.object ms) s) (subset : ms ⊆ more) :
    Message.Denotes (.object more) s := by
  cases denotes with
  | object body value => exact .object (subset body) value

/-- Only one variant gives messages. -/
theorem Frame.variant_message {tag : String} {decode : Value → Option Frame} {v : Value} {m : Message}
    (known : Frame.variants.variant? tag = some decode) (decoded : decode v = some (.message m)) :
    Message.decoder.ofValue? v = some m := by
  obtain ⟨w, found, rfl⟩ := Option.map_eq_some_iff.1 known
  have listed := List.mem_of_find?_eq_some found
  simp only [variants, List.mem_cons, List.not_mem_nil, or_false] at listed
  rcases listed with rfl | rfl | rfl
  · obtain ⟨r, -, same⟩ := Option.map_eq_some_iff.1 decoded
    cases same
  · obtain ⟨_, buffered, same⟩ := Option.map_eq_some_iff.1 decoded
    obtain rfl := Frame.message.inj same
    exact buffered
  · obtain ⟨text, -, same⟩ := Option.map_eq_some_iff.1 decoded
    cases same

theorem Frame.denotes {v : Value} {m : Message} {b : Body}
    (decoded : Frame.variants.ofValue? v = some (.message m)) (present : m.body = some b) :
    Frame.Denotes v b.value := by
  unfold Variants.ofValue? at decoded
  split at decoded
  · split at decoded
    · obtain ⟨decode, known, decoded⟩ := Option.bind_eq_some_iff.1 decoded
      have message := Message.denotes (Frame.variant_message known decoded) present
      exact .object (message.of_subset (List.filter_subset_self _))
    · cases decoded
  · obtain ⟨decode, known, decoded⟩ := Option.bind_eq_some_iff.1 decoded
    exact .list (Message.denotes (Frame.variant_message known decoded) present)
  · cases decoded

theorem coherent_message : Message.decoder.Coherent := by
  have body : Body.decoder.Coherent := by
    apply Record.Coherent.decoder
    intro f found
    simp only [Body.record, List.mem_cons, List.not_mem_nil, or_false] at found
    rcases found with rfl | rfl
    · exact Decoder.coherent_string.storing
    · exact Decoder.coherent_string.storing
  apply Record.Coherent.decoder
  intro f found
  simp only [Message.record, List.mem_cons, List.not_mem_nil, or_false] at found
  rcases found with rfl | rfl
  · exact Decoder.coherent_string.dictionary.storing.orLacking
  · exact body.optional.storing.orLacking

def Frame.body? : Frame → Option Body
  | .message m => m.body
  | _ => none

def heldBody? : ChannelAgent.Frame → Option ChannelAgent.Body
  | .message m => m.body
  | _ => none

/-- Bodies keep the strings of their values from text to text. A text is accepted with a body just
if it is well-formed and the string is canonical; then it is written with the same string. Any other
string makes the whole text a mismatch. -/
structure Survives {α ω : Type} (parse : String → Except Fault α) (write : α → String)
    (body? : α → Option ChannelAgent.Body) (verbatim : String → Except Fault ω)
    (rewrite : ω → String) (kept? : ω → Option Body) (denotes : Value → String → Prop) : Prop where
  accepted : ∀ {text x}, parse text = .ok x → ∃ w, verbatim text = .ok w ∧ write x = rewrite w ∧
    ∀ b, body? x = some b → ∃ value, kept? w = some ⟨b.typeUrl, value⟩ ∧
      Base64.Canonical value.toList ∧ Base64.decode? value.toList = some b.value
  canonical : ∀ {text w b}, verbatim text = .ok w → kept? w = some b →
    Base64.Canonical b.value.toList → ∃ x, parse text = .ok x ∧ write x = rewrite w
  other : ∀ {text w b}, verbatim text = .ok w → kept? w = some b →
    ¬ Base64.Canonical b.value.toList → parse text = .error .mismatched
  denoted : ∀ {text v w b}, Decoder.any.parseText text = .ok v → verbatim text = .ok w →
    kept? w = some b → denotes v b.value

/-- Bodies that correspond in what is kept and what it converts to. -/
structure Corresponds (kept : Option Body) (body : Option ChannelAgent.Body) (converts : Bool) :
    Prop where
  back : ∀ b, body = some b → ∃ value, kept = some ⟨b.typeUrl, value⟩ ∧
    Base64.Canonical value.toList ∧ Base64.decode? value.toList = some b.value
  forth : ∀ b, kept = some b → (converts = true ↔ Base64.Canonical b.value.toList)

theorem survives_of_follows {α ω : Type} {e : Decoder ω} {d : Decoder α} {f : ω → Option α}
    {write : α → String} {body? : α → Option ChannelAgent.Body} {rewrite : ω → String}
    {kept? : ω → Option Body} {denotes : Value → String → Prop}
    (follows : ∀ s, Json.Follows (Converts f) (e.read depthLimit s) (d.read depthLimit s))
    (coherent : e.Coherent) (written : ∀ w x, f w = some x → write x = rewrite w)
    (corresponds : ∀ w, Corresponds (kept? w) ((f w).bind body?) (f w).isSome)
    (denoted : ∀ v w b, e.ofValue? v = some w → kept? w = some b → denotes v b.value) :
    Survives d.parseText write body? e.parseText rewrite kept? denotes := by
  constructor
  · intro text x parsed
    obtain ⟨accepts, refuses⟩ := Decoder.parse_follows follows (text.toList.map some)
    cases read : e.parseText text with
    | error fault =>
      obtain ⟨fault', refused⟩ := refuses fault read
      cases refused.symm.trans parsed
    | ok w =>
      have same := (accepts w read).symm.trans parsed
      cases converted : f w with
      | none =>
        rw [converted] at same
        cases same
      | some y =>
        rw [converted] at same
        obtain rfl := Except.ok.inj same
        refine ⟨w, rfl, written w y converted, fun b present => ?_⟩
        exact (corresponds w).back b (by rw [converted]; exact present)
  · intro text w b read present canonical
    obtain ⟨x, converted⟩ := Option.isSome_iff_exists.1 (((corresponds w).forth b present).2 canonical)
    have parsed := (Decoder.parse_follows follows (text.toList.map some)).1 w read
    rw [converted] at parsed
    exact ⟨x, parsed, written w x converted⟩
  · intro text w b read present stray
    have converted : f w = none := by
      cases converted : f w with
      | none => rfl
      | some x => exact absurd (((corresponds w).forth b present).1 (by rw [converted]; rfl)) stray
    have parsed := (Decoder.parse_follows follows (text.toList.map some)).1 w read
    rwa [converted] at parsed
  · intro text v w b buffered read present
    exact denoted v w b ((coherent.parse_eq_ok buffered).1 read) present

theorem Message.corresponds (w : Message) :
    Corresponds w.body (w.message?.bind ChannelAgent.Message.body) w.message?.isSome := by
  obtain ⟨labels, _ | b⟩ := w
  · exact ⟨nofun, nofun⟩
  · constructor
    · intro body same
      obtain ⟨m, found, held⟩ := Option.bind_eq_some_iff.1 same
      obtain ⟨body', converted, rfl⟩ := Option.map_eq_some_iff.1 found
      obtain rfl : body' = body := Option.some.inj held
      obtain ⟨bytes, decoded, rfl⟩ := Option.map_eq_some_iff.1 converted
      exact ⟨b.value, rfl, Base64.decode_isSome.1 (Option.isSome_of_eq_some decoded), decoded⟩
    · intro b' same
      obtain rfl := Option.some.inj same
      rw [← Base64.decode_isSome]
      simp only [message?, Body.body?, Option.isSome_map]

theorem Frame.corresponds (w : Frame) :
    Corresponds w.body? (w.frame?.bind heldBody?) w.frame?.isSome := by
  cases w with
  | opening channel regional => exact ⟨nofun, nofun⟩
  | error text => exact ⟨nofun, nofun⟩
  | message m =>
    obtain ⟨back, forth⟩ := m.corresponds
    constructor
    · intro b same
      refine back b ?_
      obtain ⟨f, found, held⟩ := Option.bind_eq_some_iff.1 same
      obtain ⟨m', converted, rfl⟩ := Option.map_eq_some_iff.1 found
      rw [converted]
      exact held
    · intro b same
      rw [frame?, Option.isSome_map]
      exact forth b same

/-- Messages and message frames keep the strings of their values. The strings that are accepted are
the canonical ones, no two of which stand for the same bytes. -/
theorem values_survive :
    Survives ChannelAgent.Message.parse ChannelAgent.Message.write ChannelAgent.Message.body
        Message.parse Message.write Message.body Message.Denotes ∧
      Survives ChannelAgent.Frame.parse ChannelAgent.Frame.write heldBody? Frame.parse Frame.write
        Frame.body? Frame.Denotes ∧
      (∀ text, (Base64.decode? text).isSome = true ↔ Base64.Canonical text) ∧
      ∀ text text' bytes, Base64.decode? text = some bytes → Base64.decode? text' = some bytes →
        text = text' := by
  refine ⟨survives_of_follows (Message.follows.read depthLimit) coherent_message
    (fun _ _ => Message.write_of_message?) Message.corresponds (fun _ _ _ => Message.denotes),
    survives_of_follows (Frame.follow.read depthLimit) Variants.coherent_decoder
    (fun _ _ => Frame.write_of_frame?) Frame.corresponds ?_, fun _ => Base64.decode_isSome,
    fun _ _ _ => Base64.decode_injective⟩
  intro v w b decoded present
  cases w with
  | message m => exact Frame.denotes decoded present
  | _ => cases present

/-- A string with an escape, which is written without it, and a string with a stray bit. -/
theorem values_survive_stray_bit :
    let text := "\x7b\"body\":\x7b\"value\":\"aG\\u006b=\",\"type_url\":\"t\"\x7d\x7d"
    let stray := "\x7b\"body\":\x7b\"value\":\"aGl=\",\"type_url\":\"t\"\x7d\x7d"
    Message.parse text = .ok ⟨.empty, some ⟨"t", "aGk="⟩⟩ ∧
      (∃ m, ChannelAgent.Message.parse text = .ok m ∧
        m.write = "\x7b\"labels\":\x7b\x7d,\"body\":\x7b\"type_url\":\"t\",\"value\":\"aGk=\"\x7d\x7d") ∧
      Message.parse stray = .ok ⟨.empty, some ⟨"t", "aGl="⟩⟩ ∧
      ChannelAgent.Message.parse stray = .error .mismatched := by
  intro text stray
  have read : Message.parse text = .ok ⟨.empty, some ⟨"t", "aGk="⟩⟩ := by decide +kernel
  have read' : Message.parse stray = .ok ⟨.empty, some ⟨"t", "aGl="⟩⟩ := by decide +kernel
  have canonical : Base64.Canonical "aGk=".toList := Base64.decode_isSome.1 (by decide)
  have other : ¬ Base64.Canonical "aGl=".toList := fun canonical =>
    absurd (Base64.decode_isSome.2 canonical) (by decide)
  obtain ⟨m, accepted, written⟩ := values_survive.1.canonical read rfl canonical
  refine ⟨read, ⟨m, accepted, ?_⟩, read', values_survive.1.other read' rfl other⟩
  rw [written]
  decide +kernel

end ChannelAgent.Verbatim
