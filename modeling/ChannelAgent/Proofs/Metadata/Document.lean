import ChannelAgent.Metadata
import ChannelAgent.Proofs.Json.Denotation
import ChannelAgent.Proofs.Json.Places

set_option autoImplicit false

namespace ChannelAgent

open Json

section

variable {mark : Char} {chars before after : List Char}

theorem exists_last (found : mark ∈ chars) :
    ∃ before after, mark ∉ after ∧ chars = before ++ mark :: after := by
  obtain ⟨after, before, whole, apart⟩ := List.eq_append_cons_of_mem (List.mem_reverse.2 found)
  refine ⟨before.reverse, after.reverse, by simpa using apart, ?_⟩
  rw [← List.reverse_reverse chars, whole]
  simp

theorem ne_of_notMem_reverse (apart : mark ∉ chars) :
    ∀ c ∈ chars.reverse, decide (c ≠ mark) = true := by
  intro c found
  refine decide_eq_true ?_
  rintro rfl
  exact apart (List.mem_reverse.1 found)

theorem takeWhile_last (apart : mark ∉ after) :
    (before ++ mark :: after).reverse.takeWhile (· ≠ mark) = after.reverse := by
  rw [List.reverse_append, List.reverse_cons, List.append_assoc,
    List.takeWhile_append_of_pos (ne_of_notMem_reverse apart)]
  simp

theorem dropWhile_last (apart : mark ∉ after) :
    (before ++ mark :: after).reverse.dropWhile (· ≠ mark) = mark :: before.reverse := by
  rw [List.reverse_append, List.reverse_cons, List.append_assoc,
    List.dropWhile_append_of_pos (ne_of_notMem_reverse apart)]
  simp

end

/-- A zone is its region, a hyphen and a suffix without hyphens; without any hyphen it has no
region. -/
inductive CloudProperties.RegionOf (zone region : String) : Prop
  | before {suffix : String} (apart : '-' ∉ suffix.toList) (whole : zone = region ++ "-" ++ suffix) :
      RegionOf zone region
  | none (apart : '-' ∉ zone.toList) (empty : region = "") : RegionOf zone region

theorem CloudProperties.regionOf_regionOfZone (zone : String) : RegionOf zone (regionOfZone zone) := by
  by_cases found : '-' ∈ zone.toList
  · obtain ⟨before, after, apart, whole⟩ := exists_last found
    have suffix : '-' ∉ (String.ofList after).toList := by
      simpa using apart
    refine .before suffix ?_
    have region : regionOfZone zone = String.ofList before := by
      rw [regionOfZone, whole, dropWhile_last apart]
      simp
    rw [region, ← String.toList_inj, whole]
    simp
  · have all := List.dropWhile_eq_nil_iff.2 (ne_of_notMem_reverse found)
    refine .none found ?_
    rw [regionOfZone, all]

theorem CloudProperties.RegionOf.eq {zone region : String} (is : RegionOf zone region) :
    regionOfZone zone = region := by
  cases is with
  | @before suffix apart whole =>
    have chars : zone.toList = region.toList ++ '-' :: suffix.toList := by
      rw [whole]
      simp
    rw [regionOfZone, chars, dropWhile_last apart]
    simp
  | none apart empty =>
    rw [regionOfZone, List.dropWhile_eq_nil_iff.2 (ne_of_notMem_reverse apart), empty]

namespace Metadata

/-- A path ends in a segment: it holds no slash, and a slash is in front of it, or nothing at
all. -/
structure EndsIn (path segment : String) : Prop where
  apart : '/' ∉ segment.toList
  last : path = segment ∨ ∃ before, path = before ++ "/" ++ segment

theorem endsIn_lastSegment (path : String) : EndsIn path (lastSegment path) := by
  by_cases found : '/' ∈ path.toList
  · obtain ⟨before, after, apart, whole⟩ := exists_last found
    have segment : lastSegment path = String.ofList after := by
      rw [lastSegment, whole, takeWhile_last apart, List.reverse_reverse]
    rw [segment]
    refine ⟨by simpa using apart, .inr ⟨String.ofList before, ?_⟩⟩
    rw [← String.toList_inj, whole]
    simp
  · have segment : lastSegment path = path := by
      rw [lastSegment, List.takeWhile_eq_self_iff.2 (ne_of_notMem_reverse found), List.reverse_reverse,
        String.ofList_toList]
    rw [segment]
    exact ⟨found, .inl rfl⟩

theorem EndsIn.eq {path segment : String} (is : EndsIn path segment) : lastSegment path = segment := by
  obtain ⟨apart, rfl | ⟨before, rfl⟩⟩ := is
  · rw [lastSegment, List.takeWhile_eq_self_iff.2 (ne_of_notMem_reverse apart), List.reverse_reverse,
      String.ofList_toList]
  · have chars : (before ++ "/" ++ segment).toList = before.toList ++ '/' :: segment.toList := by
      simp
    rw [lastSegment, chars, takeWhile_last apart, List.reverse_reverse, String.ofList_toList]

/-- What the texts of the part about the project say. -/
structure Project.Tells (p : Project) (depth : Nat) (texts : String → Option (List Symbol)) : Prop where
  projectId : Told .string depth "" (texts "projectId") p.projectId
  numericProjectId : Told .any depth .null (texts "numericProjectId") p.numericProjectId

/-- What the texts of the part about the instance say. -/
structure Instance.Tells (i : Instance) (depth : Nat) (texts : String → Option (List Symbol)) : Prop where
  id : Told .any depth .null (texts "id") i.id
  zone : Told .string depth "" (texts "zone") i.zone
  name : Told .string depth "" (texts "name") i.name
  image : Told .string depth "" (texts "image") i.image
  machineType : Told .string depth "" (texts "machineType") i.machineType

structure Document.Tells (d : Document) (depth : Nat) (parts : String → Option (List Symbol)) : Prop where
  project : Told Project.record.decoder depth {} (parts "project") d.project
  machine : Told Instance.record.decoder depth {} (parts "instance") d.machine

section

variable {depth : Nat} {texts : String → Option (List Symbol)} {s rest : List Symbol}

theorem Project.Tells.unique {p q : Project} (tells : p.Tells depth texts) (again : q.Tells depth texts) :
    p = q := by
  cases p
  cases q
  congr
  · exact tells.projectId.unique again.projectId
  · exact tells.numericProjectId.unique again.numericProjectId

theorem Instance.Tells.unique {i j : Instance} (tells : i.Tells depth texts)
    (again : j.Tells depth texts) : i = j := by
  cases i
  cases j
  congr
  · exact tells.id.unique again.id
  · exact tells.zone.unique again.zone
  · exact tells.name.unique again.name
  · exact tells.image.unique again.image
  · exact tells.machineType.unique again.machineType

theorem Document.Tells.unique {d e : Document} (tells : d.Tells depth texts) (again : e.Tells depth texts) :
    d = e := by
  cases d
  cases e
  congr
  · exact tells.project.unique again.project
  · exact tells.machine.unique again.machine

theorem Project.lenient : Project.record.Lenient where
  ignores := rfl
  framed := by
    simp only [Project.record, List.forall_mem_cons]
    exact ⟨Decoder.framed_string.map _, Decoder.framed_any.map _, nofun⟩
  mayLack := by
    simp only [Project.record, List.forall_mem_cons]
    exact ⟨rfl, rfl, nofun⟩
  distinct := by
    simp [Record.names, Project.record, Field.storing, Field.orLacking]

theorem Project.slots : Project.record.Slot "projectId" .string Project.projectId ∧
    Project.record.Slot "numericProjectId" .any Project.numericProjectId := by
  refine ⟨⟨⟨_, rfl, fun _ _ => rfl⟩, ?_⟩, ⟨_, rfl, fun _ _ => rfl⟩, ?_⟩
  all_goals
    intro f found apart
    simp only [Project.record, List.mem_cons, List.not_mem_nil, or_false] at found
    rcases found with rfl | rfl
    all_goals first
      | exact absurd rfl apart
      | exact Record.get_of_storing fun _ _ => rfl

theorem Project.read_iff {p : Project} : Project.record.decoder.read (depth + 1) s = .ok (p, rest) ↔
    ∃ texts, Lists Project.record.names texts s rest ∧ p.Tells depth texts := by
  obtain ⟨projectId, numericProjectId⟩ := slots
  refine lenient.told_iff (fun _ => rfl) (fun texts p => p.Tells depth texts)
    (fun fills listed => ?_) (fun tells name f text field given => ?_)
    (fun {texts x y} tells again => Tells.unique tells again)
  · exact ⟨projectId.told fills (listed _ (by decide)),
      numericProjectId.told fills (listed _ (by decide))⟩
  · have known := Record.mem_names_of_field field
    simp only [Record.names, Project.record, List.map_cons, List.map_nil, List.mem_cons,
      List.not_mem_nil, or_false] at known
    rcases known with rfl | rfl
    · exact projectId.read field (given ▸ tells.projectId)
    · exact numericProjectId.read field (given ▸ tells.numericProjectId)

theorem Instance.lenient : Instance.record.Lenient where
  ignores := rfl
  framed := by
    simp only [Instance.record, List.forall_mem_cons]
    exact ⟨Decoder.framed_any.map _, Decoder.framed_string.map _, Decoder.framed_string.map _,
      Decoder.framed_string.map _, Decoder.framed_string.map _, nofun⟩
  mayLack := by
    simp only [Instance.record, List.forall_mem_cons]
    exact ⟨rfl, rfl, rfl, rfl, rfl, nofun⟩
  distinct := by
    simp [Record.names, Instance.record, Field.storing, Field.orLacking]

theorem Instance.slots : Instance.record.Slot "id" .any Instance.id ∧
    Instance.record.Slot "zone" .string Instance.zone ∧
    Instance.record.Slot "name" .string Instance.name ∧
    Instance.record.Slot "image" .string Instance.image ∧
    Instance.record.Slot "machineType" .string Instance.machineType := by
  refine ⟨⟨⟨_, rfl, fun _ _ => rfl⟩, ?_⟩, ⟨⟨_, rfl, fun _ _ => rfl⟩, ?_⟩,
    ⟨⟨_, rfl, fun _ _ => rfl⟩, ?_⟩, ⟨⟨_, rfl, fun _ _ => rfl⟩, ?_⟩, ⟨_, rfl, fun _ _ => rfl⟩, ?_⟩
  all_goals
    intro f found apart
    simp only [Instance.record, List.mem_cons, List.not_mem_nil, or_false] at found
    rcases found with rfl | rfl | rfl | rfl | rfl
    all_goals first
      | exact absurd rfl apart
      | exact Record.get_of_storing fun _ _ => rfl

theorem Instance.read_iff {i : Instance} :
    Instance.record.decoder.read (depth + 1) s = .ok (i, rest) ↔
      ∃ texts, Lists Instance.record.names texts s rest ∧ i.Tells depth texts := by
  obtain ⟨id, zone, name, image, machineType⟩ := slots
  refine lenient.told_iff (fun _ => rfl) (fun texts i => i.Tells depth texts)
    (fun fills listed => ?_) (fun tells other f text field given => ?_)
    (fun {texts x y} tells again => Tells.unique tells again)
  · exact ⟨id.told fills (listed _ (by decide)), zone.told fills (listed _ (by decide)),
      name.told fills (listed _ (by decide)), image.told fills (listed _ (by decide)),
      machineType.told fills (listed _ (by decide))⟩
  · have known := Record.mem_names_of_field field
    simp only [Record.names, Instance.record, List.map_cons, List.map_nil, List.mem_cons,
      List.not_mem_nil, or_false] at known
    rcases known with rfl | rfl | rfl | rfl | rfl
    · exact id.read field (given ▸ tells.id)
    · exact zone.read field (given ▸ tells.zone)
    · exact name.read field (given ▸ tells.name)
    · exact image.read field (given ▸ tells.image)
    · exact machineType.read field (given ▸ tells.machineType)

theorem Document.lenient : Document.record.Lenient where
  ignores := rfl
  framed := by
    simp only [Document.record, List.forall_mem_cons]
    exact ⟨Project.lenient.framed_decoder.map _, Instance.lenient.framed_decoder.map _, nofun⟩
  mayLack := by
    simp only [Document.record, List.forall_mem_cons]
    exact ⟨rfl, rfl, nofun⟩
  distinct := by
    simp [Record.names, Document.record, Field.storing, Field.orLacking]

theorem Document.slots : Document.record.Slot "project" Project.record.decoder Document.project ∧
    Document.record.Slot "instance" Instance.record.decoder Document.machine := by
  refine ⟨⟨⟨_, rfl, fun _ _ => rfl⟩, ?_⟩, ⟨_, rfl, fun _ _ => rfl⟩, ?_⟩
  all_goals
    intro f found apart
    simp only [Document.record, List.mem_cons, List.not_mem_nil, or_false] at found
    rcases found with rfl | rfl
    all_goals first
      | exact absurd rfl apart
      | exact Record.get_of_storing fun _ _ => rfl

theorem Document.read_iff {d : Document} :
    Document.record.decoder.read (depth + 1) s = .ok (d, rest) ↔
      ∃ parts, Lists Document.record.names parts s rest ∧ d.Tells depth parts := by
  obtain ⟨project, machine⟩ := slots
  refine lenient.told_iff (fun _ => rfl) (fun texts d => d.Tells depth texts)
    (fun fills listed => ?_) (fun tells name f text field given => ?_)
    (fun {texts x y} tells again => Tells.unique tells again)
  · exact ⟨project.told fills (listed _ (by decide)), machine.told fills (listed _ (by decide))⟩
  · have known := Record.mem_names_of_field field
    simp only [Record.names, Document.record, List.map_cons, List.map_nil, List.mem_cons,
      List.not_mem_nil, or_false] at known
    rcases known with rfl | rfl
    · exact project.read field (given ▸ tells.project)
    · exact machine.read field (given ▸ tells.machine)

end

/-- The texts that a part of the document gives at some names; an absent one gives none. -/
inductive PartGives (names : List String) (texts : String → Option (List Symbol)) :
    Option (List Symbol) → Prop
  | absent (nothing : ∀ name ∈ names, texts name = none) : PartGives names texts none
  | present {part : List Symbol} (lists : Lists names texts part []) : PartGives names texts (some part)

def namesOf (part : String) : List String :=
  if part = "project" then Project.record.names else Instance.record.names

/-- The texts that a whole document gives, by part and name. Other members do not count. -/
inductive Gives (texts : String → String → Option (List Symbol)) (s : List Symbol) : Prop
  | document {parts : String → Option (List Symbol)} {rest : List Symbol}
      (lists : Lists Document.record.names parts s rest) (blank : skipSpace rest = [])
      (inside : ∀ part ∈ Document.record.names, PartGives (namesOf part) (texts part) (parts part)) :
      Gives texts s

inductive Kind
  /-- A string, as it is. -/
  | text
  /-- A string of which the last segment counts. -/
  | path
  /-- Any value: a string as it is, a number as it is written out, and anything else as nothing. -/
  | id
  deriving DecidableEq

/-- A place of the document and the property that it is for. -/
structure Entry where
  part : String
  name : String
  kind : Kind
  of : CloudProperties → String

def entries : List Entry :=
  [⟨"project", "projectId", .text, CloudProperties.projectId⟩,
    ⟨"project", "numericProjectId", .id, CloudProperties.numericProjectId⟩,
    ⟨"instance", "id", .id, CloudProperties.instanceId⟩,
    ⟨"instance", "zone", .path, CloudProperties.zone⟩,
    ⟨"instance", "name", .text, CloudProperties.instanceName⟩,
    ⟨"instance", "image", .text, CloudProperties.image⟩,
    ⟨"instance", "machineType", .path, CloudProperties.machineType⟩]

/-- What the text at a place comes to; where there is none, to the empty text. Inside the document
and one of its parts there may be 125 more containers around each other. -/
inductive Reads : Kind → Option (List Symbol) → String → Prop
  | absent {kind : Kind} : Reads kind none ""
  | text {x : String} {t : List Char} (spelled : StringText x t) : Reads .text (some (t.map some)) x
  | path {x path : String} {t : List Char} (spelled : StringText path t) (last : EndsIn path x) :
      Reads .path (some (t.map some)) x
  | id {v : Value} {t : List Char} (spelled : ValueText 125 v t) : Reads .id (some (t.map some)) (idText v)

theorem Reads.noSlash {text? : Option (List Symbol)} {x : String} (reads : Reads .path text? x) :
    '/' ∉ x.toList := by
  cases reads with
  | absent => exact List.not_mem_nil
  | path _ last => exact last.apart

/-- The properties that the texts of a document come to. -/
structure Describes (texts : String → String → Option (List Symbol)) (p : CloudProperties) : Prop where
  entry : ∀ e ∈ entries, Reads e.kind (texts e.part e.name) (e.of p)
  region : CloudProperties.RegionOf p.zone p.region

section

variable {depth : Nat} {text : List Symbol} {text? : Option (List Symbol)}

theorem told_string_iff {x : String} (kept : RawText text) :
    Told .string depth "" (some text) x ↔ ∃ t : List Char, text = t.map some ∧ StringText x t := by
  have visible := (raw_eq_ok.1 kept).1
  rw [List.append_nil] at visible
  constructor
  · intro told
    cases told with
    | present read =>
      obtain ⟨body, quote, token⟩ := Decoder.string_eq_ok.1 read
      obtain ⟨quoted, spelled, whole⟩ := StringText.of_read token
      exact ⟨quoted, by rw [← visible, quote, whole, List.append_nil], spelled⟩
  · rintro ⟨t, rfl, spelled⟩
    obtain ⟨body, whole, token⟩ := spelled.read []
    rw [List.append_nil] at whole
    exact .present (Decoder.string_eq_ok.2 ⟨body, visible.trans whole, token⟩)

theorem told_any_iff {v : Value} (kept : RawText text) :
    Told .any depth .null (some text) v ↔ ∃ t : List Char, text = t.map some ∧ ValueText depth v t := by
  have visible := (raw_eq_ok.1 kept).1
  rw [List.append_nil] at visible
  constructor
  · intro told
    cases told with
    | present read =>
      obtain ⟨before, t, blank, spelled, whole⟩ := spelling depth read
      rw [List.append_nil] at whole
      -- the text starts with a visible symbol, so no white space is in front
      have shorter := length_skipSpace (t.map some)
      rw [← blank.skip, ← whole, visible, whole, List.length_append, List.length_map] at shorter
      obtain rfl := List.eq_nil_of_length_eq_zero (show before.length = 0 by omega)
      exact ⟨t, whole, spelled⟩
  · rintro ⟨t, rfl, spelled⟩
    have read := spelled.takes [] endsBefore_nil
    rw [List.append_nil] at read
    exact .present read

theorem PartGives.rawText {names : List String} {texts : String → Option (List Symbol)} {name : String}
    (gives : PartGives names texts text?) (known : name ∈ names) (given : texts name = some text) :
    RawText text := by
  cases gives with
  | absent nothing => cases (nothing name known).symm.trans given
  | present lists => exact lists.rawText known given

/-- A part that is told by the texts at its names is told by those that it gives. -/
theorem told_part_iff {α : Type} {r : Record α α} {standard x : α}
    {tells : (String → Option (List Symbol)) → α → Prop}
    (read_iff : ∀ {s rest x}, r.decoder.read (depth + 1) s = .ok (x, rest) ↔
      ∃ texts, Lists r.names texts s rest ∧ tells texts x)
    (nothing : ∀ {texts}, (∀ name ∈ r.names, texts name = none) → tells texts standard)
    (unique : ∀ {texts x y}, tells texts x → tells texts y → x = y) :
    Told r.decoder (depth + 1) standard text? x ↔
      ∃ texts, PartGives r.names texts text? ∧ tells texts x := by
  constructor
  · intro told
    cases told with
    | absent => exact ⟨fun _ => none, .absent fun _ _ => rfl, nothing fun _ _ => rfl⟩
    | present read =>
      obtain ⟨texts, lists, told⟩ := read_iff.1 read
      exact ⟨texts, .present lists, told⟩
  · rintro ⟨texts, gives, told⟩
    cases gives with
    | absent none =>
      obtain rfl := unique told (nothing none)
      exact .absent
    | present lists => exact .present (read_iff.2 ⟨texts, lists, told⟩)

theorem Project.told_iff {p : Project} : Told Project.record.decoder (depth + 1) {} text? p ↔
    ∃ texts, PartGives Project.record.names texts text? ∧ p.Tells depth texts := by
  refine told_part_iff read_iff (fun {texts} none => ?_) Tells.unique
  have absent {name : String} (known : name ∈ Project.record.names) {β : Type} (d : Decoder β)
      (standard : β) : Told d depth standard (texts name) standard := none name known ▸ .absent
  exact ⟨absent (by decide) _ _, absent (by decide) _ _⟩

theorem Instance.told_iff {i : Instance} : Told Instance.record.decoder (depth + 1) {} text? i ↔
    ∃ texts, PartGives Instance.record.names texts text? ∧ i.Tells depth texts := by
  refine told_part_iff read_iff (fun {texts} none => ?_) Tells.unique
  have absent {name : String} (known : name ∈ Instance.record.names) {β : Type} (d : Decoder β)
      (standard : β) : Told d depth standard (texts name) standard := none name known ▸ .absent
  exact ⟨absent (by decide) _ _, absent (by decide) _ _, absent (by decide) _ _, absent (by decide) _ _,
    absent (by decide) _ _⟩

theorem reads_text_iff {x : String} (kept : ∀ text, text? = some text → RawText text) :
    Reads .text text? x ↔ Told .string 125 "" text? x := by
  constructor
  · intro reads
    cases reads with
    | absent => exact .absent
    | text spelled => exact (told_string_iff (kept _ rfl)).2 ⟨_, rfl, spelled⟩
  · intro told
    cases text? with
    | none =>
      cases told
      exact .absent
    | some text =>
      obtain ⟨t, rfl, spelled⟩ := (told_string_iff (kept text rfl)).1 told
      exact .text spelled

theorem reads_path_iff {x : String} (kept : ∀ text, text? = some text → RawText text) :
    Reads .path text? x ↔ ∃ path, Told .string 125 "" text? path ∧ lastSegment path = x := by
  constructor
  · intro reads
    cases reads with
    | absent => exact ⟨"", .absent, rfl⟩
    | path spelled last =>
      exact ⟨_, (told_string_iff (kept _ rfl)).2 ⟨_, rfl, spelled⟩, last.eq⟩
  · rintro ⟨path, told, rfl⟩
    cases text? with
    | none =>
      cases told
      exact .absent
    | some text =>
      obtain ⟨t, rfl, spelled⟩ := (told_string_iff (kept text rfl)).1 told
      exact .path spelled (endsIn_lastSegment path)

theorem reads_id_iff {x : String} (kept : ∀ text, text? = some text → RawText text) :
    Reads .id text? x ↔ ∃ v, Told .any 125 .null text? v ∧ idText v = x := by
  constructor
  · intro reads
    cases reads with
    | absent => exact ⟨.null, .absent, rfl⟩
    | id spelled => exact ⟨_, (told_any_iff (kept _ rfl)).2 ⟨_, rfl, spelled⟩, rfl⟩
  · rintro ⟨v, told, rfl⟩
    cases text? with
    | none =>
      cases told
      exact .absent
    | some text =>
      obtain ⟨t, rfl, spelled⟩ := (told_any_iff (kept text rfl)).1 told
      exact .id spelled

end

section

variable {texts : String → String → Option (List Symbol)} {s : List Symbol} {p : CloudProperties}

theorem forall_entries {P : Entry → Prop} : (∀ e ∈ entries, P e) ↔
    P ⟨"project", "projectId", .text, CloudProperties.projectId⟩ ∧
      P ⟨"project", "numericProjectId", .id, CloudProperties.numericProjectId⟩ ∧
      P ⟨"instance", "id", .id, CloudProperties.instanceId⟩ ∧
      P ⟨"instance", "zone", .path, CloudProperties.zone⟩ ∧
      P ⟨"instance", "name", .text, CloudProperties.instanceName⟩ ∧
      P ⟨"instance", "image", .text, CloudProperties.image⟩ ∧
      P ⟨"instance", "machineType", .path, CloudProperties.machineType⟩ := by
  simp only [entries, List.forall_mem_cons, List.not_mem_nil, false_imp_iff, implies_true, and_true]

theorem known_of_entry {e : Entry} (listed : e ∈ entries) :
    e.part ∈ Document.record.names ∧ e.name ∈ namesOf e.part := by
  have all : ∀ e ∈ entries, e.part ∈ Document.record.names ∧ e.name ∈ namesOf e.part := by
    refine forall_entries.2 ⟨?_, ?_, ?_, ?_, ?_, ?_, ?_⟩ <;> decide
  exact all e listed

theorem forall_parts {P : String → Prop} :
    (∀ part ∈ Document.record.names, P part) ↔ P "project" ∧ P "instance" := by
  simp [Record.names, Document.record, Field.storing, Field.orLacking]

theorem forall_instance_names {P : String → Prop} : (∀ name ∈ Instance.record.names, P name) ↔
    P "id" ∧ P "zone" ∧ P "name" ∧ P "image" ∧ P "machineType" := by
  simp [Record.names, Instance.record, Field.storing, Field.orLacking]

theorem Gives.rawText (gives : Gives texts s) : ∀ e ∈ entries, ∀ text,
    texts e.part e.name = some text → RawText text := by
  intro e listed text given
  obtain ⟨known, named⟩ := known_of_entry listed
  cases gives with
  | document _ _ inside => exact (inside e.part known).rawText named given

/-- The texts of a document come to the properties that a document of this content has. -/
theorem Gives.describes_iff (gives : Gives texts s) : Describes texts p ↔
    ∃ d : Document, d.project.Tells 125 (texts "project") ∧ d.machine.Tells 125 (texts "instance") ∧
      d.properties = p := by
  obtain ⟨projectId', number', id', zone', name', image', machineType'⟩ := forall_entries.1 gives.rawText
  constructor
  · rintro ⟨entry, region⟩
    obtain ⟨projectId, numericProjectId, id, zone, name, image, machineType⟩ := forall_entries.1 entry
    obtain ⟨number, numbered, written⟩ := (reads_id_iff number').1 numericProjectId
    obtain ⟨value, valued, identified⟩ := (reads_id_iff id').1 id
    obtain ⟨zonePath, zoned, zoneName⟩ := (reads_path_iff zone').1 zone
    obtain ⟨typePath, typed, typeName⟩ := (reads_path_iff machineType').1 machineType
    refine ⟨⟨⟨p.projectId, number⟩, ⟨value, zonePath, p.instanceName, p.image, typePath⟩⟩,
      ⟨(reads_text_iff projectId').1 projectId, numbered⟩,
      ⟨valued, zoned, (reads_text_iff name').1 name,
        (reads_text_iff image').1 image, typed⟩, ?_⟩
    simp only [Document.properties, written, identified, zoneName, typeName, region.eq]
  · rintro ⟨d, ⟨projectId, number⟩, ⟨id, zone, name, image, machineType⟩, rfl⟩
    refine ⟨forall_entries.2 ⟨?_, ?_, ?_, ?_, ?_, ?_, ?_⟩, ?_⟩
    · exact (reads_text_iff projectId').2 projectId
    · exact (reads_id_iff number').2 ⟨_, number, rfl⟩
    · exact (reads_id_iff id').2 ⟨_, id, rfl⟩
    · exact (reads_path_iff zone').2 ⟨_, zone, rfl⟩
    · exact (reads_text_iff name').2 name
    · exact (reads_text_iff image').2 image
    · exact (reads_path_iff machineType').2 ⟨_, machineType, rfl⟩
    · simp only [Document.properties]
      exact CloudProperties.regionOf_regionOfZone (lastSegment d.machine.zone)

/-- A body is parsed just if it gives texts at the known places, and the properties are what these
come to. -/
theorem parse_iff {body : List UInt8} : parse body = .ok p ↔
    ∃ texts, Gives texts (Utf8.symbols body) ∧ Describes texts p := by
  constructor
  · intro parsed
    obtain ⟨d, decoded, properties⟩ := map_eq_ok.1 parsed
    obtain ⟨rest, read, blank⟩ := Decoder.parse_eq_ok.1 decoded
    obtain ⟨parts, lists, told⟩ := Document.read_iff.1 read
    obtain ⟨project, gives, tells⟩ := Project.told_iff.1 told.project
    obtain ⟨machine, gives', tells'⟩ := Instance.told_iff.1 told.machine
    have both : Gives (fun part => if part = "project" then project else machine) (Utf8.symbols body) :=
      .document lists blank (forall_parts.2 ⟨gives, gives'⟩)
    exact ⟨_, both, both.describes_iff.2 ⟨d, tells, tells', properties⟩⟩
  · rintro ⟨texts, gives, describes⟩
    obtain ⟨d, tells, tells', properties⟩ := gives.describes_iff.1 describes
    cases gives with
    | @document parts rest lists blank inside =>
      obtain ⟨project, machine⟩ := forall_parts.1 inside
      have told : d.Tells 126 parts :=
        ⟨Project.told_iff.2 ⟨_, project, tells⟩, Instance.told_iff.2 ⟨_, machine, tells'⟩⟩
      refine map_eq_ok.2 ⟨d, Decoder.parse_eq_ok.2 ⟨rest, ?_, blank⟩, properties⟩
      exact Document.read_iff.2 ⟨parts, lists, told⟩

end

end Metadata

end ChannelAgent
