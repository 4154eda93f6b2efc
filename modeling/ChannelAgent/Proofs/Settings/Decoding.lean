import ChannelAgent.Proofs.Json.Agreement
import ChannelAgent.Proofs.Text.Utf8
import ChannelAgent.Settings.Configuration

set_option autoImplicit false

namespace ChannelAgent

open Json

theorem parseBytes_encode {α : Type} (d : Decoder α) (text : String) :
    d.parseBytes (Utf8.encode text) = d.parseText text := by
  rw [Decoder.parseBytes, Utf8.symbols_encode, Decoder.parseText]

/-- A record of strings, each of which may be absent. -/
theorem coherent_strings {σ α : Type} {r : Record σ α}
    (strings : ∀ f ∈ r.fields, ∃ name store, f = (Field.storing name .string store).orLacking) :
    r.decoder.Coherent := by
  refine Record.Coherent.decoder fun f found => ?_
  obtain ⟨name, store, rfl⟩ := strings f found
  exact Decoder.coherent_string.storing.orLacking

theorem CloudProperties.fields_strings : ∀ f ∈ record.fields,
    ∃ name store, f = (Field.storing name .string store).orLacking := by
  intro f found
  simp only [record, List.mem_cons, List.not_mem_nil, or_false] at found
  rcases found with rfl | rfl | rfl | rfl | rfl | rfl | rfl | rfl <;> exact ⟨_, _, rfl⟩

theorem ChannelSettings.fields_strings : ∀ f ∈ record.fields,
    ∃ name store, f = (Field.storing name .string store).orLacking := by
  intro f found
  simp only [record, List.mem_cons, List.not_mem_nil, or_false] at found
  rcases found with rfl | rfl <;> exact ⟨_, _, rfl⟩

theorem CloudProperties.coherent_decoder : decoder.Coherent := coherent_strings fields_strings

theorem ChannelSettings.coherent_decoder : record.decoder.Coherent := coherent_strings fields_strings

namespace Configuration

theorem coherent_decoder : decoder.Coherent := by
  refine Record.Coherent.decoder fun f found => ?_
  simp only [record, List.mem_cons, List.not_mem_nil, or_false] at found
  rcases found with rfl | rfl | rfl | rfl | rfl
  · exact (Decoder.coherent_any.refine _).storing.orLacking
  · exact CloudProperties.coherent_decoder.optional.storing.orLacking
  · exact Decoder.coherent_word.storing.orLacking
  · exact Decoder.coherent_word.storing.orLacking
  · exact ChannelSettings.coherent_decoder.optional.storing.orLacking

/-- A file whose content can be buffered is not empty, so it is loaded or malformed. -/
theorem parse_cases {content : List UInt8} {v : Value}
    (buffered : Decoder.any.parseBytes content = .ok v) (path : String) :
    (∃ c, decoder.ofValue? v = some c ∧ parse path content = .ok c) ∨
      (decoder.ofValue? v = none ∧ ∃ fault, parse path content = .error (.malformed path fault)) := by
  have agree : (decoder.parseBytes content).toOption = decoder.ofValue? v :=
    coherent_decoder.parse buffered
  have filled : content.isEmpty = false := by
    cases content with
    | nil =>
      rw [Decoder.parseBytes, Utf8.symbols, Utf8.collect] at buffered
      cases buffered
    | cons b bytes => rfl
  unfold parse
  rw [filled]
  cases parsed : decoder.parseBytes content with
  | error fault =>
    rw [parsed] at agree
    exact .inr ⟨agree.symm, fault, rfl⟩
  | ok c =>
    rw [parsed] at agree
    exact .inl ⟨c, agree.symm, rfl⟩

theorem parse_ok_iff {content : List UInt8} {v : Value}
    (buffered : Decoder.any.parseBytes content = .ok v) (path : String) {c : Configuration} :
    parse path content = .ok c ↔ decoder.ofValue? v = some c := by
  rcases parse_cases buffered path with ⟨x, decoded, loaded⟩ | ⟨decoded, fault, refused⟩
  · rw [decoded, loaded, Except.ok.injEq, Option.some.injEq]
  · rw [decoded, refused]
    exact ⟨nofun, nofun⟩

end Configuration

end ChannelAgent
