import ChannelAgent.Proofs.Json.Integers
import ChannelAgent.Proofs.Settings.Decoding

set_option autoImplicit false

namespace ChannelAgent

open Json

/-- An object of strings is buffered as it was written. -/
theorem takes_strings (depth : Nat) (ms : List (String × String)) :
    Takes (value (depth + 1)) ((writeObject (ms.map fun m => (m.1, quoteString m.2))).map some)
      (.object (ms.map fun m => (m.1, .string m.2))) := by
  have takes : ∀ w ∈ ms.map fun m => (m.1, quoteString m.2, Value.string m.2),
      Takes (value depth) (w.2.1.map some) w.2.2 :=
    List.forall_mem_map.2 fun m _ => (reads_value_string depth m.2).takes
  have reads := reads_object _ takes
  rw [List.map_map, List.map_map] at reads
  exact reads.takes

namespace CloudProperties

/-- The members of the properties, each of them a string. -/
def members (p : CloudProperties) : List (String × String) :=
  [("projectId", p.projectId), ("numericProjectId", p.numericProjectId), ("instanceId", p.instanceId),
    ("zone", p.zone), ("instanceName", p.instanceName), ("image", p.image),
    ("machineType", p.machineType), ("region", p.region)]

theorem write_eq (p : CloudProperties) :
    p.write = writeObject (p.members.map fun m => (m.1, quoteString m.2)) :=
  rfl

end CloudProperties

namespace ChannelSettings

/-- The members of the settings, both of them strings. -/
def members (c : ChannelSettings) : List (String × String) :=
  [("endpoint", c.endpoint), ("channel", c.channel)]

theorem write_eq (c : ChannelSettings) :
    c.write = writeObject (c.members.map fun m => (m.1, quoteString m.2)) :=
  rfl

end ChannelSettings

theorem LogLevel.ofName_name (l : LogLevel) : ofName l.name = l := by
  cases l <;> rfl

namespace Configuration

/-- What a member that may be null is buffered as. -/
def optionalValue {α : Type} (members : α → List (String × String)) : Option α → Value
  | some x => .object ((members x).map fun m => (m.1, .string m.2))
  | none => .null

/-- The members of a configuration: their names, their texts and what they are buffered as. -/
def buffered (c : Configuration) : List (String × List Char × Value) :=
  [("logLevel", quoteString c.logLevel.name, .string c.logLevel.name),
    ("cloudProperties", writeOptional CloudProperties.write c.cloudProperties,
      optionalValue CloudProperties.members c.cloudProperties),
    ("fastServiceLoopSeconds", writeNat c.fastSeconds.toNat, .number (.natural c.fastSeconds)),
    ("slowServiceLoopSeconds", writeNat c.slowSeconds.toNat, .number (.natural c.slowSeconds)),
    ("communication", writeOptional ChannelSettings.write c.communication,
      optionalValue ChannelSettings.members c.communication)]

theorem takes_optional {α : Type} {write : α → List Char} {members : α → List (String × String)}
    (same : ∀ x, write x = writeObject ((members x).map fun m => (m.1, quoteString m.2)))
    (depth : Nat) (o : Option α) :
    Takes (value (depth + 1)) ((writeOptional write o).map some) (optionalValue members o) := by
  cases o with
  | none => exact fun rest _ => rfl
  | some x =>
    rw [writeOptional, same]
    exact takes_strings depth (members x)

theorem takes_buffered (c : Configuration) (depth : Nat) :
    ∀ w ∈ c.buffered, Takes (value (depth + 1)) (w.2.1.map some) w.2.2 := by
  simp only [buffered, List.forall_mem_cons, List.not_mem_nil, false_imp_iff, implies_true, and_true]
  refine ⟨?_, ?_, ?_, ?_, ?_⟩
  · exact (reads_value_string _ _).takes
  · exact takes_optional CloudProperties.write_eq depth c.cloudProperties
  · exact takes_writeNat _ _
  · exact takes_writeNat _ _
  · exact takes_optional ChannelSettings.write_eq depth c.communication

theorem ofValue_buffered (c : Configuration) :
    decoder.ofValue? (.object (c.buffered.map fun w => (w.1, w.2.2))) = some c := by
  obtain ⟨level, cloud, fast, slow, communication⟩ := c
  have named : some (Configuration.mk (.ofName level.name) cloud fast slow communication) =
      some ⟨level, cloud, fast, slow, communication⟩ := by
    rw [LogLevel.ofName_name]
  refine Eq.trans ?_ named
  cases cloud <;> cases communication <;> rfl

/-- What is written is what is read. -/
theorem parse_write (path : String) (c : Configuration) :
    parse path (Utf8.encode c.write) = .ok c := by
  have whole : Decoder.any.parseBytes (Utf8.encode c.write) =
      .ok (.object (c.buffered.map fun w => (w.1, w.2.2))) := by
    rw [parseBytes_encode]
    exact parseText_of_reads (reads_object c.buffered (c.takes_buffered 125))
  exact (parse_ok_iff whole path).2 c.ofValue_buffered

theorem applyDefaults_applyDefaults (c : Configuration) :
    c.applyDefaults.applyDefaults = c.applyDefaults := by
  obtain ⟨level, cloud, fast, slow, communication⟩ := c
  simp only [applyDefaults]
  by_cases noFast : fast = 0
  · by_cases noSlow : slow = 0 <;> simp [noFast, noSlow]
  · by_cases noSlow : slow = 0 <;> simp [noFast, noSlow]

theorem one_second_le {n : UInt64} (positive : n ≠ 0) :
    (Duration.ofSeconds 1).toNanos ≤ (Duration.ofSeconds n).toNanos := by
  have least : 1 ≤ n.toNat := Nat.one_le_iff_ne_zero.2 fun zero => positive (UInt64.toNat_inj.1 zero)
  have length (k : UInt64) : (Duration.ofSeconds k).toNanos = k.toNat * nanosPerSecond := by
    simp [Duration.toNanos, Duration.ofSeconds]
  rw [length, length]
  exact Nat.mul_le_mul_right _ least

theorem applyDefaults_positive (c : Configuration) :
    c.applyDefaults.fastSeconds ≠ 0 ∧ c.applyDefaults.slowSeconds ≠ 0 := by
  unfold applyDefaults
  constructor
  · dsimp only
    split
    · decide
    · assumption
  · dsimp only
    split
    · decide
    · assumption

/-- A saved configuration is loaded as it was, and so is one whose intervals were filled in. Filling
them in touches nothing but an interval of zero. -/
theorem saved_and_loaded (c : Configuration) :
    (∀ path, parse path (Utf8.encode c.write) = .ok c ∧
        parse path (Utf8.encode c.applyDefaults.write) = .ok c.applyDefaults) ∧
      c.applyDefaults.applyDefaults = c.applyDefaults ∧
      (Duration.ofSeconds 1).toNanos ≤ c.applyDefaults.fastInterval.toNanos ∧
      (Duration.ofSeconds 1).toNanos ≤ c.applyDefaults.slowInterval.toNanos ∧
      (c.fastSeconds ≠ 0 → c.applyDefaults.fastSeconds = c.fastSeconds) ∧
      (c.slowSeconds ≠ 0 → c.applyDefaults.slowSeconds = c.slowSeconds) ∧
      c.applyDefaults.logLevel = c.logLevel ∧
      c.applyDefaults.cloudProperties = c.cloudProperties ∧
      c.applyDefaults.communication = c.communication := by
  refine ⟨fun path => ⟨parse_write path c, parse_write path c.applyDefaults⟩,
    c.applyDefaults_applyDefaults, one_second_le c.applyDefaults_positive.1,
    one_second_le c.applyDefaults_positive.2, ?_, ?_, rfl, rfl, rfl⟩
  · intro set
    exact if_neg set
  · intro set
    exact if_neg set

end Configuration

end ChannelAgent
