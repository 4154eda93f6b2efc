import Mathlib
import ChannelAgent.Proofs.Frame
import ChannelAgent.Proofs.Json.Agreement
import ChannelAgent.Proofs.Json.Denotation
import ChannelAgent.Proofs.Json.Records

set_option autoImplicit false

namespace ChannelAgent

open Json

namespace Labels

def last? (entries : List (String × String)) (name : String) : Option String :=
  (entries.reverse.find? fun e => e.1 = name).map (·.2)

variable {l l' : Labels}

theorem get?_insert (l : Labels) (name text other : String) :
    (l.insert name text).get? other = if name = other then some text else l.get? other := by
  change ((place name text l.entries).find? _).map _ = _
  rw [get?]
  induction l.entries with
  | nil => by_cases same : name = other <;> simp [place, same]
  | cons e entries ih =>
    rw [place]
    split
    · by_cases same : name = other <;> simp [same]
    · split
      · rename_i replaced
        by_cases same : name = other
        · simp [same]
        · have apart : e.1 ≠ other := replaced ▸ same
          simp [same, apart]
      · rename_i kept
        by_cases found : e.1 = other
        · have apart : name ≠ other := found ▸ kept
          simp [found, apart]
        · simpa [found] using ih

/-- Labels made of a list of entries have the last text of each name. -/
theorem get?_ofList (entries : List (String × String)) (name : String) :
    (ofList entries).get? name = last? entries name := by
  induction entries using List.reverseRecOn with
  | nil => rfl
  | append_singleton entries e ih =>
    rw [ofList, List.foldl_append, List.foldl_cons, List.foldl_nil, get?_insert]
    by_cases same : e.1 = name
    · simp [last?, same]
    · simpa [last?, same, ofList] using ih

theorem mem_entries {e : String × String} : e ∈ l.entries ↔ l.get? e.1 = some e.2 := by
  constructor
  · intro listed
    have distinct : (l.entries.map Prod.fst).Nodup :=
      List.pairwise_map.2 (l.sorted.imp String.ne_of_lt)
    cases found : l.entries.find? fun e' => e'.1 = e.1 with
    | none => exact absurd (decide_eq_true rfl) (List.find?_eq_none.1 found e listed)
    | some e' =>
      have same : e' = e := List.inj_on_of_nodup_map distinct (List.mem_of_find?_eq_some found)
        listed (by simpa using List.find?_some found)
      simp [get?, found, same]
  · intro known
    obtain ⟨e', found, text⟩ := Option.map_eq_some_iff.1 known
    have name : e'.1 = e.1 := by simpa using List.find?_some found
    obtain rfl : e' = e := Prod.ext name text
    exact List.mem_of_find?_eq_some found

/-- Labels are what they say about each name. -/
theorem ext_get? (same : ∀ name, l.get? name = l'.get? name) : l = l' := by
  have asymm : Std.Antisymm fun a b : String × String => a.1 < b.1 :=
    ⟨fun _ _ less greater => absurd less (String.lt_asymm greater)⟩
  have irrefl : Std.Irrefl fun a b : String × String => a.1 < b.1 := ⟨fun a => String.lt_irrefl a.1⟩
  refine Labels.ext (l.sorted.eq_of_mem_iff l'.sorted fun e => ?_)
  rw [mem_entries, mem_entries, same]

end Labels

/-- What may stand for labels: an object in which the last entry of each name counts, or nothing if
there are none. -/
inductive Labels.Presents (l : Labels) : List (String × Value) → Prop
  | absent (none : l.isEmpty = true) : Labels.Presents l []
  | object {entries : List (String × String)}
      (last : ∀ name, l.get? name = Labels.last? entries name) :
      Labels.Presents l [("labels", .object (entries.map fun e => (e.1, .string e.2)))]

/-- What may stand for a body: an object with its members in any order and members of other names.
If there is no body, nothing or null. -/
inductive Body.Presents : Option Body → List (String × Value) → Prop
  | absent : Body.Presents none []
  | null : Body.Presents none [("body", .null)]
  | object {b : Body} {ms further : List (String × Value)}
      (order : ms.Perm ([("type_url", .string b.typeUrl), ("value", .string b.encoded)] ++ further))
      (others : ∀ m ∈ further, m.1 ∉ ["type_url", "value"]) :
      Body.Presents (some b) [("body", .object ms)]

inductive Frame.Presents : Frame → List (String × Value) → Prop
  | opening {channel : String} {regional : Bool} :
      Frame.Presents (.opening channel regional)
        [("channel", .string channel), ("regional", .bool regional)]
  | message {m : Message} {labels body : List (String × Value)} (labelled : m.labels.Presents labels)
      (bodied : Body.Presents m.body body) : Frame.Presents (.message m) (labels ++ body)
  | error {text : String} : Frame.Presents (.error text) [("message", .string text)]

def Frame.fieldNames : Frame → List String
  | .opening .. => ["channel", "regional"]
  | .message _ => ["labels", "body"]
  | .error _ => ["message"]

inductive Frame.Presentation (f : Frame) (text : String) : Prop
  | object {ms own further : List (String × Value)} (presents : f.Presents own)
      (others : ∀ m ∈ further, m.1 ∉ "type" :: f.fieldNames)
      (order : ms.Perm (("type", .string f.tag) :: own ++ further))
      (denotes : Denotes (.object ms) text) : Frame.Presentation f text

theorem Labels.ofList_eq {l : Labels} {entries : List (String × String)}
    (last : ∀ name, l.get? name = last? entries name) : ofList entries = l :=
  ext_get? fun name => (get?_ofList entries name).trans (last name).symm

theorem Labels.eq_empty {l : Labels} (none : l.isEmpty = true) : l = .empty :=
  Labels.ext (List.isEmpty_iff.1 none)

theorem Labels.Presents.named {l : Labels} {ms : List (String × Value)} (presents : l.Presents ms) :
    ∀ m ∈ ms, m.1 = "labels" := by
  cases presents <;> simp

theorem Body.Presents.named {body? : Option Body} {ms : List (String × Value)}
    (presents : Body.Presents body? ms) : ∀ m ∈ ms, m.1 = "body" := by
  cases presents <;> simp

theorem Body.ofValue_presented {b : Body} {ms further : List (String × Value)}
    (order : ms.Perm ([("type_url", .string b.typeUrl), ("value", .string b.encoded)] ++ further))
    (others : ∀ m ∈ further, m.1 ∉ ["type_url", "value"]) :
    decoder.ofValue? (.object ms) = some b := by
  have independent : record.fields.Pairwise Record.Independent :=
    List.pairwise_pair.2 (Record.independent_storing fun _ _ _ => rfl)
  exact (Record.ofValue_of_perm independent rfl order others).trans b.ofValue_toValue

namespace Message

/-- The labels of a message are read before its body, or left out. -/
theorem ofMembers_labels {l : Labels} {labels : List (String × Value)} (labelled : l.Presents labels) :
    ∃ seen, "body" ∉ seen ∧ ∀ rest,
      record.ofMembers? [] record.initial (labels ++ rest) =
        record.ofMembers? seen ⟨l, none⟩ rest := by
  cases labelled with
  | absent none =>
    obtain rfl := Labels.eq_empty none
    exact ⟨[], List.not_mem_nil, fun _ => rfl⟩
  | @object entries last =>
    refine ⟨["labels"], by decide, fun rest => ?_⟩
    obtain rfl := Labels.ofList_eq last
    rw [List.singleton_append, ofMembers_field _ _ rfl List.not_mem_nil
      (ofValue_orLacking (ofValue_storing (ofValue_labels entries)))]
    rfl

theorem ofMembers_body {l : Labels} {body? : Option Body} {body : List (String × Value)}
    (bodied : Body.Presents body? body) {seen : List String} (fresh : "body" ∉ seen) :
    record.ofMembers? seen ⟨l, none⟩ body = some ⟨l, body?⟩ := by
  have field {v : Value} (decoded : (Decoder.optional Body.decoder).ofValue? v = some body?) :
      record.ofMembers? seen ⟨l, none⟩ [("body", v)] = some ⟨l, body?⟩ := by
    rw [ofMembers_field _ _ rfl fresh (ofValue_orLacking (ofValue_storing decoded))]
    rfl
  cases bodied with
  | absent => rfl
  | null => exact field rfl
  | object order others => exact field (congrArg (Option.map some) (Body.ofValue_presented order others))

end Message

namespace Frame

variable {f : Frame} {own further ms : List (String × Value)} {text : String}

theorem Presents.named (presents : f.Presents own) : ∀ m ∈ own, m.1 ∈ f.fieldNames := by
  cases presents with
  | opening => simp [fieldNames]
  | message labelled bodied =>
    refine List.forall_mem_append.2 ⟨fun m found => ?_, fun m found => ?_⟩
    · simp [fieldNames, labelled.named m found]
    · simp [fieldNames, bodied.named m found]
  | error => simp [fieldNames]

theorem tagName_not_mem_fieldNames (f : Frame) : Variants.tagName ∉ f.fieldNames := by
  cases f <;> simp [fieldNames, Variants.tagName]

/-- The variant of the tag decodes what presents the frame, in any order and among other members. -/
theorem Presents.decodes (presents : f.Presents own) :
    ∃ decode, variants.variant? f.tag = some decode ∧
      ∀ {ms further}, ms.Perm (own ++ further) → (∀ m ∈ further, m.1 ∉ f.fieldNames) →
        decode (.object ms) = some f := by
  cases presents with
  | opening =>
    refine ⟨_, rfl, fun {_ _} order others => ?_⟩
    have independent : openingRecord.fields.Pairwise Record.Independent :=
      List.pairwise_pair.2 (Record.independent_storing fun _ _ _ => rfl)
    exact Record.ofValue_of_perm independent rfl order others
  | message labelled bodied =>
    refine ⟨_, rfl, fun {_ _} order others => ?_⟩
    have independent : Message.record.fields.Pairwise Record.Independent :=
      List.pairwise_pair.2 (Record.independent_storing fun _ _ _ => rfl)
    obtain ⟨seen, fresh, labels⟩ := Message.ofMembers_labels labelled
    have decoded := (Record.ofValue_of_perm independent rfl order others).trans
      ((labels _).trans (Message.ofMembers_body bodied fresh))
    exact congrArg (Option.map Frame.message) decoded
  | error =>
    refine ⟨_, rfl, fun {_ _} order others => ?_⟩
    exact Record.ofValue_of_perm (List.pairwise_singleton _ _) rfl order others

theorem Presentation.parse (presentation : f.Presentation text) : Frame.parse text = .ok f := by
  obtain @⟨ms, own, further, presents, others, order, denotes⟩ := presentation
  obtain ⟨decode, known, decodes⟩ := presents.decodes
  have untagged : ∀ m ∈ own ++ further, m.1 ≠ Variants.tagName := by
    refine List.forall_mem_append.2 ⟨fun m found same => ?_, fun m found same => ?_⟩
    · exact f.tagName_not_mem_fieldNames (same ▸ presents.named m found)
    · exact others m found (same ▸ List.mem_cons_self)
  obtain ⟨ms', rest, decoded⟩ := Variants.ofValue_of_perm known untagged order
  have unknown : ∀ m ∈ further, m.1 ∉ f.fieldNames := fun m found named =>
    others m found (List.mem_cons_of_mem _ named)
  exact (Variants.coherent_decoder.parse_eq_ok denotes.parse).2
    (decoded.trans (decodes rest unknown))

end Frame

theorem Body.text_write (b : Body) (depth : Nat) : ValueText (depth + 1) b.toValue b.write := by
  rw [write_eq]
  refine @ValueText.written_object depth [("type_url", quoteString b.typeUrl, .string b.typeUrl),
    ("value", quoteString b.encoded, .string b.encoded)] ?_
  simpa using ⟨.string (.written b.typeUrl), .string (.written b.encoded)⟩

theorem Message.text_labels (l : Labels) (depth : Nat) :
    ValueText (depth + 1) (.object (l.entries.map fun e => (e.1, .string e.2)))
      (writeObject (l.entries.map fun e => (e.1, quoteString e.2))) := by
  have values : ∀ w ∈ l.entries.map fun e => (e.1, quoteString e.2, Value.string e.2),
      ValueText depth w.2.2 w.2.1 :=
    List.forall_mem_map.2 fun e _ => .string (.written e.2)
  simpa [Function.comp_def] using ValueText.written_object values

theorem Message.text_buffered (m : Message) (depth : Nat) :
    ∀ w ∈ m.buffered, ValueText (depth + 1) w.2.2 w.2.1 := by
  obtain ⟨labels, _ | b⟩ := m
  · simpa [buffered] using text_labels labels depth
  · simpa [buffered] using ⟨text_labels labels depth, b.text_write depth⟩

theorem Message.presents (m : Message) :
    (Frame.message m).Presents (m.buffered.map fun w => (w.1, w.2.2)) := by
  have last (name : String) : m.labels.get? name = Labels.last? m.labels.entries name := by
    rw [← Labels.get?_ofList, Labels.ofList_entries]
  obtain ⟨labels, _ | b⟩ := m
  · exact .message (.object last) .absent
  · have own : Body.Presents (some b) [("body", b.toValue)] := @Body.Presents.object b _ [] .rfl nofun
    exact .message (.object last) own

namespace Frame

theorem text_buffered (f : Frame) (depth : Nat) :
    ∀ w ∈ f.buffered, ValueText (depth + 1) w.2.2 w.2.1 := by
  cases f with
  | opening channel regional =>
    have truth : ValueText (depth + 1) (.bool regional) (writeBool regional) := by
      cases regional
      · exact .false
      · exact .true
    simpa [buffered] using ⟨.string (.written channel), truth⟩
  | message m => exact m.text_buffered depth
  | error text => simpa [buffered] using ValueText.string (.written text)

theorem presents_buffered (f : Frame) : f.Presents (f.buffered.map fun w => (w.1, w.2.2)) := by
  cases f with
  | opening => exact .opening
  | message m => exact m.presents
  | error => exact .error

theorem presentation_write (f : Frame) : f.Presentation f.write := by
  have members : ∀ w ∈ (Variants.tagName, quoteString f.tag, Value.string f.tag) :: f.buffered,
      ValueText 126 w.2.2 w.2.1 :=
    List.forall_mem_cons.2 ⟨.string (.written f.tag), f.text_buffered 125⟩
  have whole := ValueText.written_object members
  have text : f.write.toList = [] ++ writeObject (((Variants.tagName, quoteString f.tag,
      Value.string f.tag) :: f.buffered).map fun w => (w.1, w.2.1)) ++ [] := by
    simp [write_eq]
  have order : (("type", Value.string f.tag) :: f.buffered.map fun w => (w.1, w.2.2)).Perm
      (("type", .string f.tag) :: (f.buffered.map fun w => (w.1, w.2.2)) ++ []) := by
    rw [List.append_nil]
  exact .object f.presents_buffered (List.forall_mem_nil _) order (.spelled text nofun nofun whole)

/-- A frame is parsed from all of its texts, in which members may stand in any order and among
members of other names, and is written as one of them. -/
theorem parsed_from_all_presentations (f : Frame) :
    (∀ text, f.Presentation text → parse text = .ok f) ∧ f.Presentation f.write :=
  ⟨fun _ presentation => presentation.parse, f.presentation_write⟩

/-- A message whose label is written twice, once with an escape, behind an unknown member and in
front of the tag. -/
theorem parsed_from_all_presentations_tag_last :
    parse ("\x7b \"seen\" :[ null ,-1],\"body\":null," ++
        "\"labels\":\x7b\"a\":\"x\",\"\\u0061\":\t\"b\"\x7d,\"type\":\"message\"\x7d\n") =
      .ok (.message ⟨.ofList [("a", "b")], none⟩) := by
  have last (name : String) :
      (Labels.ofList [("a", "b")]).get? name = Labels.last? [("a", "x"), ("a", "b")] name := by
    by_cases same : "a" = name <;> simp [Labels.get?_ofList, Labels.last?, same]
  have denotes : Denotes (.object [("seen", .list [.null, .number (.negative 1)]), ("body", .null),
      ("labels", .object [("a", .string "x"), ("a", .string "b")]), ("type", .string "message")])
      ("\x7b \"seen\" :[ null ,-1],\"body\":null," ++
        "\"labels\":\x7b\"a\":\"x\",\"\\u0061\":\t\"b\"\x7d,\"type\":\"message\"\x7d\n") :=
    denotes_iff.2 (by cbv)
  exact (parsed_from_all_presentations _).1 _ (@Presentation.object _ _ _ _
    [("seen", .list [.null, .number (.negative 1)])] (.message (.object last) .null)
    (by simp [fieldNames]) (List.reverse_perm _) denotes)

end Frame

end ChannelAgent
