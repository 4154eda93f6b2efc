import Mathlib
import ChannelAgent.Proofs.Json.Integers
import ChannelAgent.Proofs.Json.Records
import ChannelAgent.Proofs.Settings.Decoding

set_option autoImplicit false

namespace ChannelAgent

open Json

/-- The members of the given names are not repeated and hold strings. Others are ignored, unless the
object is closed to them. -/
structure Strings (names : List String) (closed : Bool) (ms : List (String × Value)) : Prop where
  known : closed = true → ∀ m ∈ ms, m.1 ∈ names
  unrepeated : ((ms.map Prod.fst).filter (· ∈ names)).Nodup
  strings : ∀ m ∈ ms, m.1 ∈ names → ∃ s, m.2 = .string s

theorem isSome_storing {σ α : Type} {name : String} {d : Decoder α} {store : α → σ → σ} {v : Value} :
    ((Field.storing name d store).orLacking.decoder.ofValue? v).isSome = (d.ofValue? v).isSome := by
  change ((d.ofValue? v).bind fun x => some (store x)).isSome = _
  cases d.ofValue? v <;> rfl

theorem isSome_string {v : Value} : (Decoder.string.ofValue? v).isSome ↔ ∃ s, v = .string s := by
  cases v with
  | string s => exact ⟨fun _ => ⟨s, rfl⟩, fun _ => rfl⟩
  | _ => exact ⟨nofun, nofun⟩

/-- A record of strings takes just the objects of its strings. -/
theorem strings_iff {σ α : Type} {r : Record σ α} (total : ∀ s, (r.finish s).isSome)
    (strings : ∀ f ∈ r.fields, ∃ name store, f = (Field.storing name .string store).orLacking)
    (ms : List (String × Value)) :
    (∃ x, r.decoder.ofValue? (.object ms) = some x) ↔ Strings r.names r.closed ms := by
  rw [← Option.isSome_iff_exists]
  refine (Record.ofMembers_isSome total).trans ?_
  have decodes {m : String × Value} {f : Json.Field σ} (field : r.field? m.1 = some f) :
      (f.decoder.ofValue? m.2).isSome ↔ ∃ s, m.2 = .string s := by
    obtain ⟨name, store, rfl⟩ := strings f (List.mem_of_find?_eq_some field)
    rw [isSome_storing]
    exact isSome_string
  constructor
  · rintro ⟨known, -, unrepeated, decoded⟩
    refine ⟨known, unrepeated, fun m found named => ?_⟩
    obtain ⟨f, field⟩ := Record.exists_field named
    exact (decodes field).1 (decoded m found f field)
  · rintro ⟨known, unrepeated, held⟩
    refine ⟨known, fun _ _ _ => List.not_mem_nil, unrepeated, fun m found f field => ?_⟩
    exact (decodes field).2 (held m found (Record.mem_names_of_field field))

theorem CloudProperties.accepts_iff (ms : List (String × Value)) :
    (∃ p, decoder.ofValue? (.object ms) = some p) ↔
      Strings ["projectId", "numericProjectId", "instanceId", "zone", "instanceName", "image",
        "machineType", "region"] false ms :=
  strings_iff (fun _ => rfl) fields_strings ms

theorem ChannelSettings.accepts_iff (ms : List (String × Value)) :
    (∃ c, record.decoder.ofValue? (.object ms) = some c) ↔ Strings ["endpoint", "channel"] true ms :=
  strings_iff (fun _ => rfl) fields_strings ms

theorem CloudProperties.unordered_decoder : decoder.Unordered := by
  apply Record.unordered_decoder
  simp only [record, List.pairwise_cons, List.forall_mem_cons, List.not_mem_nil, false_imp_iff,
    implies_true, and_true, List.Pairwise.nil]
  repeat' apply And.intro
  all_goals exact Record.independent_storing fun _ _ _ => rfl

theorem ChannelSettings.unordered_decoder : record.decoder.Unordered := by
  apply Record.unordered_decoder
  simp only [record, List.pairwise_cons, List.forall_mem_cons, List.not_mem_nil, false_imp_iff,
    implies_true, and_true, List.Pairwise.nil]
  exact Record.independent_storing fun _ _ _ => rfl

section

variable {depth : Nat} {s rest : List Symbol} {v : Value}

/-- The integers that a value can be written as. -/
theorem integer_range (read : value depth s = .ok (v, rest)) {i : Int} (integer : v.integer? = some i) :
    -9223372036854775808 ≤ i ∧ i < 18446744073709551616 := by
  cases (integer_iff_spells read).1 integer with
  | natural _ _ small => omega
  | negative _ _ _ positive small => omega

theorem isSome_level (read : value depth s = .ok (v, rest)) : (LogLevel.decoder.ofValue? v).isSome ↔
    (∃ s, v = .string s) ∨
      ∃ i, v.integer? = some i ∧ -9223372036854775808 ≤ i ∧ i < 9223372036854775808 := by
  change (LogLevel.ofValue? v).isSome ↔ _
  cases v with
  | string s => exact ⟨fun _ => .inl ⟨s, rfl⟩, fun _ => rfl⟩
  | number n =>
    cases n with
    | natural n =>
      simp only [LogLevel.ofValue?, Value.integer?, reduceCtorEq, exists_false, false_or,
        Option.some.injEq, exists_eq_left']
      by_cases small : n.toNat < 9223372036854775808
      · simp only [small, ↓reduceIte, Option.isSome_some, true_iff]
        omega
      · simp only [small, ↓reduceIte, Option.isSome_none, Bool.false_eq_true, false_iff]
        omega
    | negative n =>
      have least := (integer_range read rfl).1
      exact ⟨fun _ => .inr ⟨-(n : Int), rfl, least, by omega⟩, fun _ => rfl⟩
    | real below x => simp [LogLevel.ofValue?, Value.integer?]
  | _ => simp [LogLevel.ofValue?, Value.integer?]

theorem isSome_word (read : value depth s = .ok (v, rest)) : (Decoder.word.ofValue? v).isSome ↔
    ∃ i, v.integer? = some i ∧ 0 ≤ i ∧ i < 18446744073709551616 := by
  cases v with
  | number n =>
    cases n with
    | natural n =>
      exact ⟨fun _ => ⟨_, rfl, Int.natCast_nonneg _, (integer_range read rfl).2⟩, fun _ => rfl⟩
    | negative n =>
      refine ⟨nofun, ?_⟩
      rintro ⟨i, same, least, -⟩
      obtain ⟨t, l, -, -, -, -, positive, -⟩ := value_negative_iff.1 read
      obtain rfl := Option.some.inj same
      omega
    | real below x => simp [Decoder.word, Value.integer?]
  | _ => simp [Decoder.word, Value.integer?]

theorem isSome_optional {α : Type} {d : Decoder α} :
    (d.optional.ofValue? v).isSome ↔ v = .null ∨ ∃ x, d.ofValue? v = some x := by
  cases v with
  | null => exact ⟨fun _ => .inl rfl, fun _ => rfl⟩
  | _ =>
    simp only [Decoder.optional, Option.isSome_map, reduceCtorEq, false_or]
    exact Option.isSome_iff_exists

end

namespace Configuration

/-- What the members of a configuration have to be. -/
structure Schema (ms : List (String × Value)) : Prop where
  known : ∀ m ∈ ms, m.1 ∈ ["logLevel", "cloudProperties", "fastServiceLoopSeconds",
    "slowServiceLoopSeconds", "communication"]
  unrepeated : (ms.map Prod.fst).Nodup
  logLevel : ∀ v, ("logLevel", v) ∈ ms → (∃ s, v = .string s) ∨
    ∃ i, v.integer? = some i ∧ -9223372036854775808 ≤ i ∧ i < 9223372036854775808
  cloudProperties : ∀ v, ("cloudProperties", v) ∈ ms →
    v = .null ∨ ∃ p, CloudProperties.decoder.ofValue? v = some p
  fastSeconds : ∀ v, ("fastServiceLoopSeconds", v) ∈ ms →
    ∃ i, v.integer? = some i ∧ 0 ≤ i ∧ i < 18446744073709551616
  slowSeconds : ∀ v, ("slowServiceLoopSeconds", v) ∈ ms →
    ∃ i, v.integer? = some i ∧ 0 ≤ i ∧ i < 18446744073709551616
  communication : ∀ v, ("communication", v) ∈ ms →
    v = .null ∨ ∃ s, ChannelSettings.record.decoder.ofValue? v = some s

/-- What the members of a configuration say, each on its own. -/
structure Told (ms : List (String × Value)) (c : Configuration) : Prop where
  logLevel : Given ms "logLevel" LogLevel.decoder.ofValue? .unspecified c.logLevel
  cloudProperties : Given ms "cloudProperties" CloudProperties.decoder.optional.ofValue? none
    c.cloudProperties
  fastSeconds : Given ms "fastServiceLoopSeconds" Decoder.word.ofValue? 0 c.fastSeconds
  slowSeconds : Given ms "slowServiceLoopSeconds" Decoder.word.ofValue? 0 c.slowSeconds
  communication : Given ms "communication" ChannelSettings.record.decoder.optional.ofValue? none
    c.communication

section

variable {ms : List (String × Value)}

theorem accepts_iff (read : ∀ m ∈ ms, ∃ s rest, value 126 s = .ok (m.2, rest)) :
    (∃ c, decoder.ofValue? (.object ms) = some c) ↔ Schema ms := by
  rw [← Option.isSome_iff_exists]
  refine (Record.ofMembers_isSome fun _ => rfl).trans ?_
  have alone (known : ∀ m ∈ ms, m.1 ∈ record.names) :
      (ms.map Prod.fst).filter (· ∈ record.names) = ms.map Prod.fst :=
    List.filter_eq_self.2 (List.forall_mem_map.2 fun m found => decide_eq_true (known m found))
  constructor
  · rintro ⟨known, -, unrepeated, decoded⟩
    have known := known rfl
    rw [alone known] at unrepeated
    refine ⟨known, unrepeated, fun v found => ?_, fun v found => ?_, fun v found => ?_,
      fun v found => ?_, fun v found => ?_⟩
    · obtain ⟨s, rest, read⟩ := read _ found
      have level := decoded _ found _ rfl
      rwa [isSome_storing, isSome_level read] at level
    · have properties := decoded _ found _ rfl
      rwa [isSome_storing, isSome_optional] at properties
    · obtain ⟨s, rest, read⟩ := read _ found
      have seconds := decoded _ found _ rfl
      rwa [isSome_storing, isSome_word read] at seconds
    · obtain ⟨s, rest, read⟩ := read _ found
      have seconds := decoded _ found _ rfl
      rwa [isSome_storing, isSome_word read] at seconds
    · have settings := decoded _ found _ rfl
      rwa [isSome_storing, isSome_optional] at settings
  · rintro ⟨known, unrepeated, level, properties, fast, slow, settings⟩
    refine ⟨fun _ => known, fun _ _ _ => List.not_mem_nil, (alone known).symm ▸ unrepeated, ?_⟩
    rintro ⟨name, v⟩ found f field
    obtain ⟨s, rest, read⟩ := read _ found
    have named := known _ found
    simp only [List.mem_cons, List.not_mem_nil, or_false] at named
    rcases named with rfl | rfl | rfl | rfl | rfl <;> obtain rfl := Option.some.inj field <;>
      rw [isSome_storing]
    · exact (isSome_level read).2 (level v found)
    · exact isSome_optional.2 (properties v found)
    · exact (isSome_word read).2 (fast v found)
    · exact (isSome_word read).2 (slow v found)
    · exact isSome_optional.2 (settings v found)

theorem given {β : Type} {name : String} {d : Decoder β} {store : β → Configuration → Configuration}
    (part : Configuration → β)
    (known : record.field? name = some (Field.storing name d store).orLacking)
    (own : ∀ x s, part (store x s) = x)
    (others : ∀ f ∈ record.fields, f.name ≠ name → Record.Keeps part f) {c : Configuration}
    (decoded : decoder.ofValue? (.object ms) = some c) :
    Given ms name d.ofValue? (part {}) (part c) := by
  obtain ⟨last, done, given⟩ := Record.given_of_ofMembers known own others decoded
  obtain rfl := Option.some.inj done
  exact given

theorem told {c : Configuration} (decoded : decoder.ofValue? (.object ms) = some c) : Told ms c := by
  refine ⟨given logLevel rfl (fun _ _ => rfl) ?_ decoded,
    given cloudProperties rfl (fun _ _ => rfl) ?_ decoded,
    given fastSeconds rfl (fun _ _ => rfl) ?_ decoded,
    given slowSeconds rfl (fun _ _ => rfl) ?_ decoded,
    given communication rfl (fun _ _ => rfl) ?_ decoded⟩
  all_goals
    intro f found apart
    simp only [record, List.mem_cons, List.not_mem_nil, or_false] at found
    rcases found with rfl | rfl | rfl | rfl | rfl
    all_goals first
      | exact absurd rfl apart
      | exact Record.keeps_storing fun _ _ => rfl

theorem ofValue_shuffled {ms' : List (String × Value)} (shuffled : Shuffled ms ms') :
    decoder.ofValue? (.object ms) = decoder.ofValue? (.object ms') := by
  have level : LogLevel.decoder.Unordered := Decoder.unordered_of_objects fun _ => rfl
  have word : Decoder.word.Unordered := Decoder.unordered_of_objects fun _ => rfl
  refine Record.ofMembers_shuffled ?_ ?_ shuffled [] record.initial
  · simp only [record, List.pairwise_cons, List.forall_mem_cons, List.not_mem_nil, false_imp_iff,
      implies_true, and_true, List.Pairwise.nil]
    repeat' apply And.intro
    all_goals exact Record.independent_storing fun _ _ _ => rfl
  · intro f found
    simp only [record, List.mem_cons, List.not_mem_nil, or_false] at found
    rcases found with rfl | rfl | rfl | rfl | rfl
    · exact level.storing
    · exact CloudProperties.unordered_decoder.optional.storing
    · exact word.storing
    · exact word.storing
    · exact ChannelSettings.unordered_decoder.optional.storing

end

/-- The content of a file that is an object is loaded just if its members keep to the schema, and
else it is malformed. The members tell what is loaded, whatever their order. An integer of the
schema is what is spelled as one in the content, and the two objects within a configuration have
schemas of their own. -/
theorem loads_by_schema {content : List UInt8} {ms : List (String × Value)}
    (buffered : Decoder.any.parseBytes content = .ok (.object ms)) (path : String) :
    ((∃ c, parse path content = .ok c) ↔ Schema ms) ∧
      (∀ c, parse path content = .ok c → Told ms c) ∧
      (∀ content' ms', Decoder.any.parseBytes content' = .ok (.object ms') → Shuffled ms ms' →
        ∀ c, parse path content = .ok c ↔ parse path content' = .ok c) ∧
      (¬ Schema ms → ∃ fault, parse path content = .error (.malformed path fault) ∧
        (ConfigurationFault.malformed path fault).usageCode = 2) ∧
      (∀ m ∈ ms, ∃ s rest, s <:+ Utf8.symbols content ∧ value 126 s = .ok (m.2, rest) ∧
        ∀ i, m.2.integer? = some i ↔ Spells s rest i) ∧
      (∀ ms, (∃ p, CloudProperties.decoder.ofValue? (.object ms) = some p) ↔
        Strings ["projectId", "numericProjectId", "instanceId", "zone", "instanceName", "image",
          "machineType", "region"] false ms) ∧
      ∀ ms, (∃ s, ChannelSettings.record.decoder.ofValue? (.object ms) = some s) ↔
        Strings ["endpoint", "channel"] true ms := by
  have places : ∀ m ∈ ms, ∃ s rest, s <:+ Utf8.symbols content ∧ value 126 s = .ok (m.2, rest) := by
    intro m found
    obtain ⟨t, visible, rest, read, -⟩ := parse_object_iff.1 buffered
    obtain ⟨s, rest, within, here⟩ := read.read_of_mem (value_local 126) found
    obtain ⟨front, whole, -, -⟩ := skipSpace_taken visible
    exact ⟨s, rest, within.trans (whole ▸ List.suffix_append front t), here⟩
  have accepts : (∃ c, parse path content = .ok c) ↔ Schema ms := by
    simp only [parse_ok_iff buffered]
    refine accepts_iff fun m found => ?_
    obtain ⟨s, rest, -, here⟩ := places m found
    exact ⟨s, rest, here⟩
  refine ⟨accepts, fun c loaded => told ((parse_ok_iff buffered path).1 loaded), ?_, ?_, ?_,
    CloudProperties.accepts_iff, ChannelSettings.accepts_iff⟩
  · intro content' ms' buffered' shuffled c
    rw [parse_ok_iff buffered, parse_ok_iff buffered', ofValue_shuffled shuffled]
  · intro apart
    rcases parse_cases buffered path with ⟨c, -, loaded⟩ | ⟨-, fault, refused⟩
    · exact absurd (accepts.1 ⟨c, loaded⟩) apart
    · exact ⟨fault, refused, rfl⟩
  · intro m found
    obtain ⟨s, rest, within, here⟩ := places m found
    exact ⟨s, rest, within, here, fun i => integer_iff_spells here⟩

/-- The greatest interval is loaded, with a level that is not known, and a negative one is
refused. -/
theorem loads_by_schema_of_extremes :
    (∃ c, parse "conf" (Utf8.encode
          "\x7b\"slowServiceLoopSeconds\":18446744073709551615,\"logLevel\":\"LOUD\"\x7d") = .ok c ∧
        c.slowSeconds = 18446744073709551615 ∧ c.fastSeconds = 0) ∧
      ∃ fault, parse "conf" (Utf8.encode "\x7b\"fastServiceLoopSeconds\":-1\x7d") =
        .error (.malformed "conf" fault) := by
  have accepted : Decoder.any.parseBytes (Utf8.encode
      "\x7b\"slowServiceLoopSeconds\":18446744073709551615,\"logLevel\":\"LOUD\"\x7d") =
        .ok (.object [("slowServiceLoopSeconds", .number (.natural 18446744073709551615)),
          ("logLevel", .string "LOUD")]) := by
    rw [parseBytes_encode]
    cbv
  have refused : Decoder.any.parseBytes (Utf8.encode "\x7b\"fastServiceLoopSeconds\":-1\x7d") =
      .ok (.object [("fastServiceLoopSeconds", .number (.negative 1))]) := by
    rw [parseBytes_encode]
    cbv
  constructor
  · obtain ⟨accepts, told, -⟩ := loads_by_schema accepted "conf"
    have kept : Schema [("slowServiceLoopSeconds", .number (.natural 18446744073709551615)),
        ("logLevel", .string "LOUD")] := by
      constructor <;> simp [Value.integer?]
    obtain ⟨c, loaded⟩ := accepts.2 kept
    have members := told c loaded
    have slow := members.slowSeconds.present _ (List.mem_cons_self ..)
    exact ⟨c, loaded, (Option.some.inj slow).symm, members.fastSeconds.absent (by simp)⟩
  · obtain ⟨-, -, -, malformed, -⟩ := loads_by_schema refused "conf"
    obtain ⟨fault, failed, -⟩ := malformed fun schema => by
      obtain ⟨i, integer, least, -⟩ := schema.fastSeconds _ (List.mem_cons_self ..)
      obtain rfl := Option.some.inj integer
      exact absurd least (by decide)
    exact ⟨fault, failed⟩

end Configuration

end ChannelAgent
