import Mathlib
import ChannelAgent.Proofs.Metadata.Document
import ChannelAgent.Proofs.Settings.Decoding
import ChannelAgent.Usage.Logger

set_option autoImplicit false

namespace ChannelAgent.Metadata

open Json

/-- A number in plain decimal notation: as a literal, if it is one of 64 bits, or as a string. -/
inductive Writes (n : Int) : List Symbol → Prop
  | literal (least : -9223372036854775808 ≤ n) (most : n < 18446744073709551616) :
      Writes n ((toString n).toList.map some)
  | quoted {t : List Char} (spelled : StringText (toString n) t) : Writes n (t.map some)

/-- Texts that make no difference at a place: paths that end in the same segment, or one number. -/
inductive Alike : Kind → List Symbol → List Symbol → Prop
  | same {kind : Kind} {text : List Symbol} : Alike kind text text
  | path {path path' segment : String} {t t' : List Char} (spelled : StringText path t)
      (spelled' : StringText path' t') (last : EndsIn path segment) (last' : EndsIn path' segment) :
      Alike .path (t.map some) (t'.map some)
  | number {n : Int} {text text' : List Symbol} (writes : Writes n text) (writes' : Writes n text') :
      Alike .id text text'

section

variable {n : Int} {x : String} {t : List Char} {kind : Kind} {text text' : List Symbol}

theorem value_of_stringText (depth : Nat) (spelled : StringText x t) :
    value depth (t.map some) = .ok (.string x, []) := by
  have text : ValueText depth (.string x) t := .string spelled
  have read := text.takes [] endsBefore_nil
  rwa [List.append_nil] at read

theorem rawText_of_stringText (spelled : StringText x t) : RawText (t.map some) := by
  refine rawText_of_value (value_of_stringText 0 spelled) ?_
  cases spelled
  exact skipSpace_cons_of_visible (by decide)

theorem toList_natural (k : Nat) : (toString (Int.ofNat k)).toList = writeNat k := by
  have text : toString (Int.ofNat k) = String.ofList (Nat.toDigits 10 k) := rfl
  rw [text, String.toList_ofList, writeNat]

theorem toString_negative (k : Nat) : toString (Int.negSucc k) = "-" ++ toString (k + 1) := rfl

theorem toList_negative (k : Nat) : (toString (Int.negSucc k)).toList = '-' :: writeNat (k + 1) := by
  have text : toString (k + 1) = String.ofList (Nat.toDigits 10 (k + 1)) := rfl
  rw [toString_negative, text, writeNat]
  simp

/-- A number is read as a value that is written out the same. -/
theorem Writes.read (writes : Writes n text) (depth : Nat) :
    ∃ v, value depth text = .ok (v, []) ∧ skipSpace text = text ∧ idText v = toString n := by
  cases writes with
  | literal least most =>
    cases n with
    | ofNat k =>
      have small : k < 18446744073709551616 := Int.ofNat_lt.1 most
      have same : (UInt64.ofNat k).toNat = k := UInt64.toNat_ofNat_of_lt small
      have read := takes_writeNat depth (UInt64.ofNat k) [] endsBefore_nil
      have visible := skipSpace_writeNat k []
      rw [List.append_nil] at read visible
      rw [same, ← toList_natural] at read
      rw [← toList_natural] at visible
      exact ⟨_, read, visible, congrArg toString same⟩
    | negSucc k =>
      have read := takes_negative depth (Nat.succ_pos k) (by omega) [] endsBefore_nil
      rw [List.append_nil, ← toList_negative] at read
      refine ⟨_, read, ?_, (toString_negative k).symm⟩
      rw [toList_negative]
      exact skipSpace_cons_of_visible (by decide)
  | quoted spelled =>
    refine ⟨_, value_of_stringText depth spelled, ?_, rfl⟩
    cases spelled
    exact skipSpace_cons_of_visible (by decide)

theorem Writes.rawText (writes : Writes n text) : RawText text := by
  obtain ⟨v, read, visible, -⟩ := writes.read 0
  exact rawText_of_value read visible

theorem Writes.reads_iff (writes : Writes n text) : Reads .id (some text) x ↔ x = toString n := by
  obtain ⟨v, read, -, written⟩ := writes.read 125
  have kept : ∀ other, some text = some other → RawText other := by
    rintro _ ⟨⟩
    exact writes.rawText
  rw [reads_id_iff kept]
  constructor
  · rintro ⟨w, told, rfl⟩
    rw [told.unique (.present read), written]
  · rintro rfl
    exact ⟨v, .present read, written⟩

theorem reads_path_iff_of_endsIn {path segment : String} (spelled : StringText path t)
    (last : EndsIn path segment) : Reads .path (some (t.map some)) x ↔ x = segment := by
  have kept : ∀ other, some (t.map some) = some other → RawText other := by
    rintro _ ⟨⟩
    exact rawText_of_stringText spelled
  have read : Told .string 125 "" (some (t.map some)) path :=
    (told_string_iff (rawText_of_stringText spelled)).2 ⟨t, rfl, spelled⟩
  rw [reads_path_iff kept]
  constructor
  · rintro ⟨other, told, rfl⟩
    rw [told.unique read, last.eq]
  · rintro rfl
    exact ⟨path, read, last.eq⟩

theorem reads_none_iff : Reads kind none x ↔ x = "" := by
  constructor
  · rintro ⟨⟩
    rfl
  · rintro rfl
    exact .absent

theorem reads_id_iff_of_valueText {v : Value} (kept : RawText (t.map some)) (spelled : ValueText 125 v t) :
    Reads .id (some (t.map some)) x ↔ x = idText v := by
  refine ⟨fun reads => ?_, fun same => same ▸ .id spelled⟩
  have told := (told_any_iff kept).2 ⟨t, rfl, spelled⟩
  obtain ⟨w, again, rfl⟩ := (reads_id_iff fun _ same => Option.some.inj same ▸ kept).1 reads
  rw [again.unique told]

theorem idText_eq_empty {v : Value} (noString : ∀ x, v ≠ .string x) (noNumber : ∀ n, v ≠ .number n) :
    idText v = "" := by
  cases v with
  | string x => exact absurd rfl (noString x)
  | number n => exact absurd rfl (noNumber n)
  | null | bool _ | list _ | object _ => rfl

theorem Alike.reads (alike : Alike kind text text') (reads : Reads kind (some text) x) :
    Reads kind (some text') x := by
  cases alike with
  | same => exact reads
  | path spelled spelled' last last' =>
    exact (reads_path_iff_of_endsIn spelled' last').2 ((reads_path_iff_of_endsIn spelled last).1 reads)
  | number writes writes' => exact writes'.reads_iff.2 (writes.reads_iff.1 reads)

theorem Alike.rawText (alike : Alike kind text text') (kept : RawText text) : RawText text' := by
  cases alike with
  | same => exact kept
  | path _ spelled' _ _ => exact rawText_of_stringText spelled'
  | number _ writes' => exact writes'.rawText

end

section

variable {texts texts' : String → String → Option (List Symbol)} {s : List Symbol} {p : CloudProperties}

theorem Describes.of_alike (describes : Describes texts p)
    (alike : ∀ e ∈ entries, Option.Rel (Alike e.kind) (texts e.part e.name) (texts' e.part e.name)) :
    Describes texts' p where
  entry e listed := by
    have reads := describes.entry e listed
    have same := alike e listed
    generalize texts e.part e.name = text? at reads same
    generalize texts' e.part e.name = text?' at same ⊢
    cases same with
    | none => exact reads
    | some alike => exact alike.reads reads
  region := describes.region

theorem alike_self {kind : Kind} (text? : Option (List Symbol)) : Option.Rel (Alike kind) text? text? := by
  cases text? with
  | none => exact .none
  | some text => exact .some .same

def replaced (texts : String → String → Option (List Symbol)) (part name : String)
    (text : List Symbol) : String → String → Option (List Symbol) :=
  Function.update texts part (Function.update (texts part) name (some text))

theorem kind_of_name : ∀ e ∈ entries, ∀ f ∈ entries, e.name = f.name → e.kind = f.kind := by
  decide

theorem alike_replaced {e : Entry} (listed : e ∈ entries) {text text' : List Symbol}
    (given : texts e.part e.name = some text) (alike : Alike e.kind text text') :
    ∀ f ∈ entries, Option.Rel (Alike f.kind) (texts f.part f.name)
      (replaced texts e.part e.name text' f.part f.name) := by
  intro f found
  by_cases part : f.part = e.part
  · rw [replaced, part, Function.update_self]
    by_cases name : f.name = e.name
    · rw [name, Function.update_self, given, kind_of_name f found e listed name]
      exact .some alike
    · rw [Function.update_of_ne name]
      exact alike_self _
  · rw [replaced, Function.update_of_ne part]
    exact alike_self _

theorem PartGives.replace {names : List String} {texts : String → Option (List Symbol)} {name : String}
    {part? : Option (List Symbol)} {text : List Symbol} (gives : PartGives names texts part?)
    (named : name ∈ names) (given : texts name = some text) :
    ∃ front back, part? = some (front ++ text ++ back) ∧ front ≠ [] ∧ ∀ other, RawText other →
      Lists names (Function.update texts name (some other)) (front ++ other ++ back) [] := by
  cases gives with
  | absent nothing => cases (nothing name named).symm.trans given
  | present lists =>
    obtain ⟨front, back, some, rfl, again⟩ := lists.replace named given
    exact ⟨front, back, rfl, some, again⟩

/-- The text at a known place may be replaced where it stands. -/
theorem Gives.replace (gives : Gives texts s) {e : Entry} (listed : e ∈ entries) {text : List Symbol}
    (given : texts e.part e.name = some text) :
    ∃ front back, s = front ++ text ++ back ∧ ∀ other, RawText other →
      Gives (replaced texts e.part e.name other) (front ++ other ++ back) := by
  obtain ⟨known, named⟩ := known_of_entry listed
  cases gives with
  | @document parts rest lists blank inside =>
    obtain ⟨front, back, part, some, again⟩ := (inside e.part known).replace named given
    obtain ⟨outerFront, outerBack, -, rfl, outer⟩ := lists.replace known part
    have kept := lists.rawText known part
    refine ⟨outerFront ++ front, back ++ outerBack, by simp, fun other text => ?_⟩
    have inner := again other text
    have whole := outer _ (inner.rawText_replace some kept)
    simp only [← List.append_assoc] at whole ⊢
    refine .document whole blank fun each found => ?_
    by_cases same : each = e.part
    · subst same
      rw [replaced, Function.update_self, Function.update_self]
      exact .present inner
    · rw [replaced, Function.update_of_ne same, Function.update_of_ne same]
      exact inside each found

theorem PartGives.unique {names : List String} {texts texts' : String → Option (List Symbol)}
    {part? : Option (List Symbol)} (gives : PartGives names texts part?)
    (again : PartGives names texts' part?) : ∀ name ∈ names, texts name = texts' name := by
  cases gives with
  | absent nothing =>
    cases again with
    | absent nothing' => exact fun name named => (nothing name named).trans (nothing' name named).symm
  | present lists =>
    cases again with
    | present lists' => exact (lists.unique lists').1

/-- A document gives no other texts at the known places. -/
theorem Gives.unique (gives : Gives texts s) (again : Gives texts' s) :
    ∀ e ∈ entries, texts e.part e.name = texts' e.part e.name := by
  intro e listed
  obtain ⟨known, named⟩ := known_of_entry listed
  cases gives with
  | document lists _ inside =>
    cases again with
    | document lists' _ inside' =>
      have same := (lists.unique lists').1 e.part known
      exact (inside e.part known).unique (same ▸ inside' e.part known) e.name named

theorem Gives.describes {body : List UInt8} (gives : Gives texts (Utf8.symbols body))
    (accepted : parse body = .ok p) : Describes texts p := by
  obtain ⟨own, given, describes⟩ := parse_iff.1 accepted
  refine describes.of_alike fun e listed => ?_
  rw [given.unique gives e listed]
  exact alike_self _

end

/-- A document that gives texts for the instance only. -/
theorem gives_instance {texts : String → Option (List Symbol)} {s t part : List Symbol}
    {ms inner : List (String × List Symbol)} (visible : skipSpace s = some '\x7b' :: t)
    (read : objectOf raw t = .ok (ms, []))
    (project : ms.filter (fun m => m.1 = "project") = [])
    (machine : ms.filter (fun m => m.1 = "instance") = [("instance", some '\x7b' :: part)])
    (inside : objectOf raw part = .ok (inner, []))
    (listed : Listed Instance.record.names texts inner) :
    Gives (fun part name => if part = "instance" then texts name else none) s := by
  let parts (name : String) : Option (List Symbol) :=
    if name = "instance" then some (some '\x7b' :: part) else none
  have outer : Lists Document.record.names parts s [] :=
    ⟨.object visible ((objectOf_iff raw_local).1 read), forall_parts.2 ⟨project, machine⟩⟩
  refine .document outer rfl (forall_parts.2 ⟨?_, ?_⟩)
  · exact .absent fun _ _ => rfl
  · exact .present ⟨.object rfl ((objectOf_iff raw_local).1 inside), listed⟩

/-- A report that has its url is left out just if the number of the project is among the excluded
ones. -/
theorem request_eq_none_iff {p : CloudProperties} (l : Usage.Logger) (agent : Usage.AgentProperties)
    (status : String) : (l.setCloud p).request agent status = .ok none ↔
      (∃ url, Usage.Logger.url p l.platform = .ok url) ∧ p.numericProjectId ∈ l.exclusions := by
  simp only [Usage.Logger.request, Usage.Logger.setCloud, Option.getD_some]
  cases Usage.Logger.url p l.platform with
  | error fault => simp
  | ok url =>
    by_cases excluded : p.numericProjectId ∈ l.exclusions
    · simp [excluded]
    · simp [excluded]

/-- A body is parsed by the texts that it gives at the known places, and nothing else in it counts.
Zone and machine type are without slashes, and the region is that of the zone. At its place a path
may be exchanged for another one with the same last segment, and a number for the string of its
digits; an absent text, or an id that is neither a string nor a number, comes to nothing. -/
theorem normalised (body : List UInt8) (p : CloudProperties) :
    (parse body = .ok p ↔ ∃ texts, Gives texts (Utf8.symbols body) ∧ Describes texts p) ∧
      (parse body = .ok p →
        ('/' ∉ p.zone.toList ∧ '/' ∉ p.machineType.toList ∧ CloudProperties.RegionOf p.zone p.region) ∧
        ∀ texts, Gives texts (Utf8.symbols body) →
          -- absent texts, other values and numbers
          (∀ e ∈ entries, texts e.part e.name = none → e.of p = "") ∧
          (∀ e ∈ entries, e.kind = .id → ∀ v t, texts e.part e.name = some (t.map some) →
            ValueText 125 v t → (∀ x, v ≠ .string x) → (∀ n, v ≠ .number n) → e.of p = "") ∧
          (∀ e ∈ entries, e.kind = .id → ∀ n text, texts e.part e.name = some text → Writes n text →
            e.of p = toString n) ∧
          -- the project is excluded by its number, however it is written
          (∀ n text, texts "project" "numericProjectId" = some text → Writes n text →
            ∀ (l : Usage.Logger) agent status, (l.setCloud p).request agent status = .ok none ↔
              (∃ url, Usage.Logger.url p l.platform = .ok url) ∧ toString n ∈ l.exclusions) ∧
          -- one text is exchanged where it stands
          (∀ e ∈ entries, ∀ text text', texts e.part e.name = some text → Alike e.kind text text' →
            ∃ front back, Utf8.symbols body = front ++ text ++ back ∧
              ∀ body', Utf8.symbols body' = front ++ text' ++ back → parse body' = .ok p) ∧
          -- any other document with such texts, whatever else is in it
          ∀ body' texts', Gives texts' (Utf8.symbols body') →
            (∀ e ∈ entries, Option.Rel (Alike e.kind) (texts e.part e.name) (texts' e.part e.name)) →
            parse body' = .ok p) := by
  refine ⟨parse_iff, fun accepted => ⟨?_, fun texts gives => ?_⟩⟩
  · obtain ⟨texts, -, described⟩ := parse_iff.1 accepted
    obtain ⟨-, -, -, zone, -, -, machineType⟩ := forall_entries.1 described.entry
    exact ⟨zone.noSlash, machineType.noSlash, described.region⟩
  have describes := gives.describes accepted
  have numbered : ∀ e ∈ entries, e.kind = .id → ∀ n text, texts e.part e.name = some text →
      Writes n text → e.of p = toString n := by
    intro e listed id n text found writes
    have reads := describes.entry e listed
    rw [id, found] at reads
    exact writes.reads_iff.1 reads
  refine ⟨fun e listed absent => ?_, fun e listed id v t found spelled noString noNumber => ?_, numbered,
    fun n text found writes l agent status => ?_, fun e listed text text' found alike => ?_,
    fun body' texts' gives' alike => ?_⟩
  · have reads := describes.entry e listed
    rw [absent] at reads
    exact reads_none_iff.1 reads
  · have reads := describes.entry e listed
    rw [id, found] at reads
    rw [(reads_id_iff_of_valueText (gives.rawText e listed _ found) spelled).1 reads]
    exact idText_eq_empty noString noNumber
  · obtain ⟨-, number, -⟩ := forall_entries.1 numbered
    rw [request_eq_none_iff, ← number rfl n text found writes]
  · obtain ⟨front, back, whole, again⟩ := gives.replace listed found
    refine ⟨front, back, whole, fun body' whole' => ?_⟩
    have kept := alike.rawText (gives.rawText e listed _ found)
    have given' := again text' kept
    rw [← whole'] at given'
    exact parse_iff.2 ⟨_, given', describes.of_alike (alike_replaced listed found alike)⟩
  · exact parse_iff.2 ⟨texts', gives', describes.of_alike alike⟩

/-- A path and a number in a document, and other forms of them in another one with one more
member. -/
theorem normalised_other_forms :
    parse (Utf8.encode "\x7b\"instance\":\x7b\"id\":7,\"zone\":\"a/b\"\x7d\x7d") =
        .ok { instanceId := "7", zone := "b" } ∧
      parse (Utf8.encode "\x7b\"x\":0,\"instance\":\x7b\"zone\":\"b\",\"id\":\"7\"\x7d\x7d") =
        .ok { instanceId := "7", zone := "b" } := by
  have accepted : parse (Utf8.encode "\x7b\"instance\":\x7b\"id\":7,\"zone\":\"a/b\"\x7d\x7d") =
      .ok { instanceId := "7", zone := "b" } := by
    rw [parse, parseBytes_encode]
    cbv
  let texts (id zone : List Char) (name : String) : Option (List Symbol) :=
    if name = "id" then some (id.map some) else if name = "zone" then some (zone.map some) else none
  have first : Gives (fun part name => if part = "instance" then texts ['7'] ['"', 'a', '/', 'b', '"'] name
      else none) (Utf8.symbols (Utf8.encode "\x7b\"instance\":\x7b\"id\":7,\"zone\":\"a/b\"\x7d\x7d")) := by
    have read : objectOf raw ("\"instance\":\x7b\"id\":7,\"zone\":\"a/b\"\x7d\x7d".toList.map some) =
        .ok ([("instance", some '\x7b' :: "\"id\":7,\"zone\":\"a/b\"\x7d".toList.map some)], []) := by
      cbv
    have inside : objectOf raw ("\"id\":7,\"zone\":\"a/b\"\x7d".toList.map some) =
        .ok ([("id", ['7'].map some), ("zone", ['"', 'a', '/', 'b', '"'].map some)], []) := by
      cbv
    rw [Utf8.symbols_encode]
    exact gives_instance rfl read rfl rfl inside (forall_instance_names.2 ⟨rfl, rfl, rfl, rfl, rfl⟩)
  have second : Gives (fun part name => if part = "instance" then texts ['"', '7', '"'] ['"', 'b', '"'] name
      else none) (Utf8.symbols (Utf8.encode
        "\x7b\"x\":0,\"instance\":\x7b\"zone\":\"b\",\"id\":\"7\"\x7d\x7d")) := by
    have read : objectOf raw
        ("\"x\":0,\"instance\":\x7b\"zone\":\"b\",\"id\":\"7\"\x7d\x7d".toList.map some) =
        .ok ([("x", [some '0']),
          ("instance", some '\x7b' :: "\"zone\":\"b\",\"id\":\"7\"\x7d".toList.map some)], []) := by
      cbv
    have inside : objectOf raw ("\"zone\":\"b\",\"id\":\"7\"\x7d".toList.map some) =
        .ok ([("zone", ['"', 'b', '"'].map some), ("id", ['"', '7', '"'].map some)], []) := by
      cbv
    rw [Utf8.symbols_encode]
    exact gives_instance rfl read rfl rfl inside (forall_instance_names.2 ⟨rfl, rfl, rfl, rfl, rfl⟩)
  obtain ⟨-, known⟩ := (normalised _ _).2 accepted
  obtain ⟨-, -, -, -, -, others⟩ := known _ first
  refine ⟨accepted, others _ _ second (forall_entries.2 ?_)⟩
  refine ⟨.none, .none, .some ?_, .some ?_, .none, .none, .none⟩
  · exact .number (n := 7) (.literal (by decide) (by decide)) (.quoted (StringText.written "7"))
  · have last : EndsIn "a/b" "b" := ⟨by decide, .inr ⟨"a", by decide⟩⟩
    exact .path (StringText.written "a/b") (StringText.written "b") last ⟨by decide, .inl rfl⟩

end ChannelAgent.Metadata
