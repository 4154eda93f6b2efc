import Mathlib
import ChannelAgent.Frame
import ChannelAgent.Proofs.Json.Agreement
import ChannelAgent.Proofs.Json.Insertion

set_option autoImplicit false

namespace ChannelAgent

open Json

namespace Message

theorem coherent_body : Body.decoder.Coherent := by
  apply Record.Coherent.decoder
  intro f found
  simp only [Body.record, List.mem_cons, List.not_mem_nil, or_false] at found
  rcases found with rfl | rfl
  · exact Decoder.coherent_string.storing
  · exact (Decoder.coherent_string.refine _).storing

theorem coherent_decoder : decoder.Coherent := by
  apply Record.Coherent.decoder
  intro f found
  simp only [record, List.mem_cons, List.not_mem_nil, or_false] at found
  rcases found with rfl | rfl
  · exact Decoder.coherent_string.dictionary.storing.orLacking
  · exact coherent_body.optional.storing.orLacking

end Message

namespace Frame

theorem ofValue_tagged {before after : List (String × Value)}
    (untagged : ∀ m ∈ before ++ after, m.1 ≠ Variants.tagName) :
    decoder.ofValue? (.object (before ++ (Variants.tagName, .string "message") :: after)) =
      (Message.decoder.ofValue? (.object (before ++ after))).map .message := by
  obtain ⟨first, second⟩ := List.forall_mem_append.1 untagged
  refine (Variants.ofValue_object _ first).trans ?_
  rw [if_pos second]
  rfl

/-- An object without a tag is read as a message just if it is read as a message frame once it is
tagged, and there is a place for the tag in front of its members and behind each of them. -/
theorem message_iff_tagged {text member : String} {ms : List (String × Value)}
    (parsed : Decoder.any.parseText text = .ok (.object ms)) (untagged : ∀ m ∈ ms, m.1 ≠ "type")
    (tag : Decoder.any.parseText ("\x7b" ++ member ++ "\x7d") =
      .ok (.object [("type", .string "message")])) :
    (∀ before after, ms = before ++ after → ∃ tagged, Inserted member before text tagged) ∧
      ∀ before tagged, Inserted member before text tagged →
        ∀ m, Message.parse text = .ok m ↔ parse tagged = .ok (.message m) := by
  constructor
  · rintro before after rfl
    exact exists_inserted member parsed
  · intro before tagged inserted m
    obtain ⟨after, rfl, whole⟩ := inserted.parseText tag parsed
    have straight : (Message.parse text).toOption = _ := Message.coherent_decoder.parse parsed
    have buffered : (parse tagged).toOption = _ :=
      (Variants.coherent_decoder.parse whole).trans (ofValue_tagged untagged)
    rw [← straight] at buffered
    cases read : Message.parse text with
    | error fault =>
      rw [read] at buffered
      simp only [reduceCtorEq, false_iff]
      intro accepted
      rw [accepted] at buffered
      cases buffered
    | ok m' =>
      rw [read] at buffered
      cases tagged_read : parse tagged with
      | error fault =>
        rw [tagged_read] at buffered
        cases buffered
      | ok f =>
        rw [tagged_read] at buffered
        obtain rfl := Option.some.inj buffered
        simp

/-- A message with a label, an unknown member and a body that is null, and its frame with an escaped
tag behind the first comma. -/
theorem message_iff_tagged_escaped :
    parse ("\x7b \"labels\":\x7b\"a\":\"b\"\x7d" ++ "," ++ " " ++ "\"\\u0074ype\" :\"message\"" ++ "," ++
        "\"seen\":[1,\x7b\x7d],\"body\":null\x7d") =
      .ok (.message ⟨.ofList [("a", "b")], none⟩) := by
  have parsed : Decoder.any.parseText ("\x7b \"labels\":\x7b\"a\":\"b\"\x7d" ++ "," ++ " " ++
      "\"seen\":[1,\x7b\x7d],\"body\":null\x7d") =
        .ok (.object [("labels", .object [("a", .string "b")]),
          ("seen", .list [.number (.natural 1), .object []]), ("body", .null)]) := by
    cbv
  have closes : Decoder.any.parseText ("\x7b \"labels\":\x7b\"a\":\"b\"\x7d" ++ "\x7d") =
      .ok (.object [("labels", .object [("a", .string "b")])]) := by
    cbv
  have blank : ∀ c ∈ " ".toList, isSpace (some c) = true := by simp [isSpace]
  have tag : Decoder.any.parseText ("\x7b" ++ "\"\\u0074ype\" :\"message\"" ++ "\x7d") =
      .ok (.object [("type", .string "message")]) := by
    cbv
  have agree := (message_iff_tagged parsed (by decide) tag).2 _ _
    (.between closes (List.cons_ne_nil _ _) blank)
  exact (agree _).1 (by decide +kernel)

end Frame

end ChannelAgent
