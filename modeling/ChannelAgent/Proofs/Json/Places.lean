import ChannelAgent.Proofs.Json.Layout

set_option autoImplicit false

namespace ChannelAgent.Json

/-- The texts that members give for some names, each of which comes at most once. -/
def Listed (names : List String) (texts : String → Option (List Symbol))
    (ms : List (String × List Symbol)) : Prop :=
  ∀ name ∈ names, ms.filter (fun m => m.1 = name) = ((texts name).map (Prod.mk name)).toList

inductive Lists (names : List String) (texts : String → Option (List Symbol)) (s rest : List Symbol) :
    Prop
  | laid {ms : List (String × List Symbol)} (lays : Lays names s ms rest)
      (listed : Listed names texts ms) : Lists names texts s rest

/-- What a text for the value of a field says, or the standard where there is none. -/
inductive Told {β : Type} (d : Decoder β) (depth : Nat) (standard : β) :
    Option (List Symbol) → β → Prop
  | absent : Told d depth standard none standard
  | present {text : List Symbol} {x : β} (read : d.read depth text = .ok (x, [])) :
      Told d depth standard (some text) x

theorem Told.unique {β : Type} {d : Decoder β} {depth : Nat} {standard x y : β}
    {text? : Option (List Symbol)} (told : Told d depth standard text? x)
    (again : Told d depth standard text? y) : x = y := by
  cases told with
  | absent =>
    cases again
    rfl
  | present read =>
    cases again with
    | present same => exact (Prod.mk.inj (Except.ok.inj (read.symm.trans same))).1

section

variable {names : List String} {texts texts' : String → Option (List Symbol)} {name : String}
  {text : List Symbol} {ms : List (String × List Symbol)}

theorem Listed.mem_iff (listed : Listed names texts ms) (known : name ∈ names) :
    (name, text) ∈ ms ↔ texts name = some text := by
  have found : (name, text) ∈ ms.filter (fun m => m.1 = name) ↔ (name, text) ∈ ms := by
    simp
  rw [← found, listed name known]
  cases texts name with
  | none => simp
  | some other => simp [eq_comm]

theorem Listed.once (listed : Listed names texts ms) (known : name ∈ names) :
    (ms.filter fun m => m.1 = name).length ≤ 1 := by
  rw [listed name known]
  cases texts name <;> simp

theorem Listed.unique (listed : Listed names texts ms) (again : Listed names texts' ms)
    (known : name ∈ names) : texts name = texts' name :=
  Option.ext fun _ => (listed.mem_iff known).symm.trans (again.mem_iff known)

theorem Lays.unique {s rest rest' : List Symbol} {ms ms' : List (String × List Symbol)}
    (lays : Lays names s ms rest) (again : Lays names s ms' rest') : ms = ms' ∧ rest = rest' := by
  cases lays with
  | object visible read =>
    cases again with
    | object visible' read' =>
      obtain rfl := (List.cons.inj (visible.symm.trans visible')).2
      exact Prod.mk.inj (Except.ok.inj
        (((objectOf_iff raw_local).2 read).symm.trans ((objectOf_iff raw_local).2 read')))
    | list visible' _ _ => cases visible.symm.trans visible'
  | list visible read _ =>
    cases again with
    | object visible' _ => cases visible.symm.trans visible'
    | list visible' read' _ =>
      obtain rfl := (List.cons.inj (visible.symm.trans visible')).2
      obtain ⟨rfl, rfl⟩ := Prod.mk.inj (Except.ok.inj
        (((listOf_iff raw_local).2 read).symm.trans ((listOf_iff raw_local).2 read')))
      exact ⟨rfl, rfl⟩

theorem Lists.unique {s rest rest' : List Symbol} (lists : Lists names texts s rest)
    (again : Lists names texts' s rest') :
    (∀ name ∈ names, texts name = texts' name) ∧ rest = rest' := by
  obtain ⟨lays, listed⟩ := lists
  obtain ⟨lays', listed'⟩ := again
  obtain ⟨rfl, rfl⟩ := lays.unique lays'
  exact ⟨fun name known => listed.unique listed' known, rfl⟩

end

section

variable {names : List String} {first : Bool} {s rest text : List Symbol} {name : String}

theorem ElementsRead.rawText {items : List (List Symbol)} (read : ElementsRead raw first s items rest) :
    ∀ text ∈ items, RawText text := by
  induction read with
  | closed _ => exact nofun
  | element _ kept _ ih => exact List.forall_mem_cons.2 ⟨rawText_of_read kept, ih⟩

theorem MembersRead.rawText {ms : List (String × List Symbol)} (read : MembersRead raw first s ms rest) :
    ∀ m ∈ ms, RawText m.2 := by
  induction read with
  | closed _ => exact nofun
  | member _ _ kept _ ih => exact List.forall_mem_cons.2 ⟨rawText_of_read kept, ih⟩

/-- What stands at a name is the text of a value. -/
theorem Lists.rawText {texts : String → Option (List Symbol)} (lists : Lists names texts s rest)
    (known : name ∈ names) (given : texts name = some text) : RawText text := by
  obtain ⟨lays, listed⟩ := lists
  have found := (listed.mem_iff known).2 given
  cases lays with
  | object _ read => exact read.rawText _ found
  | list _ read _ => exact read.rawText _ (List.of_mem_zip found).2

end

namespace Record

variable {σ α β : Type} {r : Record σ α} {depth : Nat} {seen : List String} {state last : σ}
  {ms : List (String × List Symbol)} {name : String} {d : Decoder β} {get : σ → β}

/-- A part of the state is what the field of some name stores, and no other field touches it. -/
structure Slot (r : Record σ α) (name : String) (d : Decoder β) (get : σ → β) : Prop where
  own : ∃ store : β → σ → σ, r.field? name = some (Field.storing name d store).orLacking ∧
    ∀ x s, get (store x s) = x
  others : ∀ f ∈ r.fields, f.name ≠ name → ∀ depth text keep,
    f.decoder.read depth text = .ok (keep, []) → ∀ s, get (keep s) = get s

theorem get_of_storing {γ : Type} {e : Decoder γ} {store : γ → σ → σ}
    (leaves : ∀ x s, get (store x s) = get s) (depth : Nat) (text : List Symbol) (keep : σ → σ)
    (read : (Field.storing name e store).orLacking.decoder.read depth text = .ok (keep, [])) (s : σ) :
    get (keep s) = get s := by
  obtain ⟨x, -, rfl⟩ := Decoder.map_read_eq_ok.1 read
  exact leaves x s

theorem Fills.once (fills : r.Fills depth seen state ms last) (known : name ∈ r.names) :
    ∃ text? : Option (List Symbol), ms.filter (fun m => m.1 = name) =
      (text?.map (Prod.mk name)).toList ∧ (name ∈ seen → text? = none) := by
  induction fills with
  | nothing => exact ⟨none, rfl, fun _ => rfl⟩
  | @unknown seen state last other text ms field later ih =>
    obtain ⟨text?, found, old⟩ := ih
    have apart : other ≠ name := by
      rintro rfl
      exact field?_eq_none.1 field known
    exact ⟨text?, by simpa [apart] using found, old⟩
  | @known seen state last other text f store ms field fresh read later ih =>
    obtain ⟨text?, found, old⟩ := ih
    by_cases same : other = name
    · subst same
      obtain rfl := old (List.mem_cons_self ..)
      exact ⟨some text, by simpa using found, fun again => absurd again fresh⟩
    · exact ⟨text?, by simpa [same] using found, fun again => old (List.mem_cons_of_mem _ again)⟩

/-- The names of a record come at most once where its members fill it. -/
theorem Fills.listed (fills : r.Fills depth seen state ms last) : ∃ texts, Listed r.names texts ms := by
  have each : ∀ name, ∃ text? : Option (List Symbol), name ∈ r.names →
      ms.filter (fun m => m.1 = name) = (text?.map (Prod.mk name)).toList := by
    intro name
    by_cases known : name ∈ r.names
    · obtain ⟨text?, found, -⟩ := fills.once known
      exact ⟨text?, fun _ => found⟩
    · exact ⟨none, fun found => absurd found known⟩
  choose texts listed using each
  exact ⟨texts, listed⟩

theorem Slot.told (slot : r.Slot name d get) (fills : r.Fills depth seen state ms last)
    {text? : Option (List Symbol)}
    (once : ms.filter (fun m => m.1 = name) = (text?.map (Prod.mk name)).toList) :
    Told d depth (get state) text? (get last) := by
  obtain ⟨store, own, stored⟩ := slot.own
  induction fills generalizing text? with
  | nothing =>
    cases text? with
    | none => exact .absent
    | some text => cases once
  | @unknown seen state last other text ms field later ih =>
    have apart : other ≠ name := by
      rintro rfl
      cases field.symm.trans own
    exact ih (by simpa [apart] using once)
  | @known seen state last other text f keep ms field fresh read later ih =>
    by_cases same : other = name
    · subst same
      obtain rfl := Option.some.inj (field.symm.trans own)
      obtain ⟨x, valued, rfl⟩ := Decoder.map_read_eq_ok.1 read
      cases text? with
      | none => simp at once
      | some first =>
        obtain ⟨rfl, behind⟩ : text = first ∧ ms.filter (fun m => m.1 = other) = [] := by
          simpa using once
        have unchanged : Told d _ (get (store x state)) none (get last) := ih behind
        rw [stored] at unchanged
        cases unchanged with
        | absent => exact .present valued
    · have apart : f.name ≠ name := fun this => same ((field?_name field).symm.trans this)
      rw [← slot.others f (List.mem_of_find?_eq_some field) apart depth text keep read state]
      exact ih (by simpa [same] using once)

theorem Slot.read (slot : r.Slot name d get) {f : Field σ} (field : r.field? name = some f)
    {standard x : β} {text : List Symbol} (told : Told d depth standard (some text) x) :
    ∃ store, f.decoder.read depth text = .ok (store, []) := by
  obtain ⟨store, own, -⟩ := slot.own
  obtain rfl := Option.some.inj (field.symm.trans own)
  cases told with
  | present read => exact ⟨store x, Decoder.map_read_eq_ok.2 ⟨x, read, rfl⟩⟩

/-- Members fill a record if their known names come once and their texts are read. -/
theorem exists_fills (fresh : ∀ m ∈ ms, m.1 ∈ r.names → m.1 ∉ seen)
    (once : ∀ name ∈ r.names, (ms.filter fun m => m.1 = name).length ≤ 1)
    (readable : ∀ m ∈ ms, ∀ f, r.field? m.1 = some f →
      ∃ store, f.decoder.read depth m.2 = .ok (store, [])) :
    ∃ last, r.Fills depth seen state ms last := by
  induction ms generalizing seen state with
  | nil => exact ⟨state, .nothing⟩
  | cons m ms ih =>
    obtain ⟨name, text⟩ := m
    obtain ⟨here, later⟩ := List.forall_mem_cons.1 fresh
    obtain ⟨reads, others⟩ := List.forall_mem_cons.1 readable
    have shorter : ∀ other ∈ r.names, (ms.filter fun m => m.1 = other).length ≤ 1 := fun other known =>
      ((List.sublist_cons_self (name, text) ms).filter _).length_le.trans (once other known)
    cases field : r.field? name with
    | none =>
      obtain ⟨last, fills⟩ := ih later shorter others
      exact ⟨last, .unknown field fills⟩
    | some f =>
      obtain ⟨store, read⟩ := reads f field
      have known := mem_names_of_field field
      have behind : ms.filter (fun m => m.1 = name) = [] := by
        have single := once name known
        simpa using single
      have unseen : ∀ m ∈ ms, m.1 ∈ r.names → m.1 ∉ name :: seen := by
        intro m found named
        rw [List.mem_cons, not_or]
        refine ⟨fun same => ?_, later m found named⟩
        exact List.filter_eq_nil_iff.1 behind m found (decide_eq_true same)
      obtain ⟨last, fills⟩ := ih unseen shorter others
      exact ⟨last, .known field (here known) read fills⟩

/-- A record that is its own state is read just if what its texts say is so. -/
theorem Lenient.told_iff {r : Record α α} (lenient : r.Lenient) (whole : ∀ s, r.finish s = some s)
    (tells : (String → Option (List Symbol)) → α → Prop)
    (sound : ∀ {ms last texts}, r.Fills depth [] r.initial ms last → Listed r.names texts ms →
      tells texts last)
    (readable : ∀ {texts x}, tells texts x → ∀ name f text, r.field? name = some f →
      texts name = some text → ∃ store, f.decoder.read depth text = .ok (store, []))
    (unique : ∀ {texts x y}, tells texts x → tells texts y → x = y) {s rest : List Symbol} {x : α} :
    r.decoder.read (depth + 1) s = .ok (x, rest) ↔
      ∃ texts, Lists r.names texts s rest ∧ tells texts x := by
  rw [lenient.read_iff]
  constructor
  · rintro ⟨ms, last, lays, fills, finished⟩
    obtain rfl := Option.some.inj ((whole last).symm.trans finished)
    obtain ⟨texts, listed⟩ := fills.listed
    exact ⟨texts, ⟨lays, listed⟩, sound fills listed⟩
  · rintro ⟨texts, @⟨ms, lays, listed⟩, said⟩
    obtain ⟨last, fills⟩ : ∃ last, r.Fills depth [] r.initial ms last :=
      exists_fills (fun _ _ _ => List.not_mem_nil) (fun name known => listed.once known)
        fun m found f field => readable said m.1 f m.2 field
          ((listed.mem_iff (mem_names_of_field field)).1 found)
    exact ⟨_, last, lays, fills, by rw [whole, unique said (sound fills listed)]⟩

end Record

section

variable {names : List String} {first : Bool} {name : String} {s rest text : List Symbol}

theorem ElementsRead.replace {before after : List (List Symbol)}
    (read : ElementsRead raw first s (before ++ text :: after) rest) :
    ∃ front back, s = front ++ text ++ back ∧ ∀ other, RawText other →
      ElementsRead raw first (front ++ other ++ back) (before ++ other :: after) rest := by
  induction before generalizing first s with
  | nil =>
    cases read with
    | @element _ _ t u _ _ _ next kept later =>
      obtain ⟨t', c, w, comes, visible, unclosed, rfl⟩ := nextElement_true.1 next
      obtain ⟨front, rfl, fronts⟩ := comes.extent
      obtain ⟨shown, space, rfl, -, spaces⟩ := skipSpace_extent visible
      have whole := (raw_eq_ok.1 kept).1
      rw [skipSpace_cons_of_visible shown] at whole
      refine ⟨front ++ space, u, by simp [whole], fun other kept => ?_⟩
      obtain ⟨d, o, rfl, seen, opened⟩ := raw_starts kept
      refine .element (nextElement_true.2 ⟨space ++ (some d :: o ++ u), some d, o ++ u, ?_, ?_, ?_, rfl⟩)
        (kept.read later.ends) later
      · simpa using fronts (space ++ (some d :: o ++ u))
      · rw [spaces]
        exact skipSpace_cons_of_visible seen
      · exact fun same => opened (Option.some.inj same)
  | cons b before ih =>
    cases read with
    | element next kept later =>
      obtain ⟨front, back, rfl, again⟩ := ih later
      obtain ⟨-, joint, rfl, joints⟩ := nextElement_extent next
      obtain ⟨taken, rfl, nonempty, takes⟩ := raw_local kept
      refine ⟨joint ++ taken ++ front, back, by simp, fun other kept => ?_⟩
      have later := again other kept
      have same : (taken ++ (front ++ other ++ back)).head? =
          (taken ++ (front ++ text ++ back)).head? := by
        cases taken with
        | nil => exact absurd rfl nonempty
        | cons c taken => rfl
      have next := joints _ same
      rw [← List.append_assoc] at next
      simpa using ElementsRead.element next (takes _ later.ends) later

theorem MembersRead.replace {before after : List (String × List Symbol)}
    (read : MembersRead raw first s (before ++ (name, text) :: after) rest) :
    ∃ front back, s = front ++ text ++ back ∧ ∀ other, RawText other →
      MembersRead raw first (front ++ other ++ back) (before ++ (name, other) :: after) rest := by
  induction before generalizing first s with
  | nil =>
    cases read with
    | @member _ _ t u v _ _ _ _ named joined kept later =>
      obtain ⟨joint, rfl, names⟩ := nextName_extent named
      obtain ⟨mark, rfl, joins⟩ := colon_extent joined
      obtain ⟨c, w, rfl, -, -⟩ := raw_starts kept
      obtain ⟨-, space, rfl, -, spaces⟩ := skipSpace_extent (raw_eq_ok.1 kept).1
      refine ⟨joint ++ mark ++ space, v, by simp, fun other kept => ?_⟩
      obtain ⟨d, o, rfl, seen, -⟩ := raw_starts kept
      have whole : skipSpace (space ++ (some d :: o ++ v)) = some d :: o ++ v := by
        rw [spaces]
        exact skipSpace_cons_of_visible seen
      have read := raw_of_passes (raw_passes kept) whole later.ends
      have member := MembersRead.member (names _) (joins _) read later
      simpa using member
  | cons b before ih =>
    cases read with
    | member named joined kept later =>
      obtain ⟨front, back, rfl, again⟩ := ih later
      obtain ⟨joint, rfl, names⟩ := nextName_extent named
      obtain ⟨mark, rfl, joins⟩ := colon_extent joined
      obtain ⟨taken, rfl, -, takes⟩ := raw_local kept
      refine ⟨joint ++ mark ++ taken ++ front, back, by simp, fun other kept => ?_⟩
      have later := again other kept
      have member := MembersRead.member (names _) (joins _) (takes _ later.ends) later
      simpa using member

/-- The text of a member may be replaced where it stands. -/
theorem Lays.replace {before after : List (String × List Symbol)}
    (lays : Lays names s (before ++ (name, text) :: after) rest) :
    ∃ front back, front ≠ [] ∧ s = front ++ text ++ back ∧ ∀ other, RawText other →
      Lays names (front ++ other ++ back) (before ++ (name, other) :: after) rest := by
  generalize whole : before ++ (name, text) :: after = ms at lays
  cases lays with
  | object visible read =>
    subst whole
    obtain ⟨opening, rfl, some, opens⟩ := skipSpace_taken visible
    obtain ⟨front, back, rfl, again⟩ := read.replace
    refine ⟨opening ++ front, back, by simp [some], by simp, fun other kept => ?_⟩
    rw [List.append_assoc, List.append_assoc, ← List.append_assoc front]
    exact .object (opens _) (again other kept)
  | list visible read fits =>
    obtain ⟨opening, rfl, some, opens⟩ := skipSpace_taken visible
    obtain ⟨earlier, others, items, texts, same, rfl, rfl, rfl, here⟩ :=
      List.zip_eq_append_iff.1 whole.symm
    obtain ⟨later, texts, rfl, rfl, rfl⟩ := List.zip_eq_cons_iff.1 here.symm
    obtain ⟨front, back, rfl, again⟩ := read.replace
    refine ⟨opening ++ front, back, by simp [some], by simp, fun other kept => ?_⟩
    rw [List.append_assoc, List.append_assoc, ← List.append_assoc front, ← List.zip_cons_cons,
      ← List.zip_append same]
    refine .list (opens _) (again other kept) ?_
    simpa using fits

end

section

variable {names : List String} {texts : String → Option (List Symbol)} {name : String}
  {s rest text : List Symbol} {ms : List (String × List Symbol)}

theorem Listed.replace (listed : Listed names texts ms) (known : name ∈ names)
    (given : texts name = some text) :
    ∃ before after, ms = before ++ (name, text) :: after ∧ ∀ other,
      Listed names (Function.update texts name (some other)) (before ++ (name, other) :: after) := by
  have single := listed name known
  rw [given] at single
  obtain ⟨before, after, rfl, noneBefore, -, noneAfter⟩ := List.filter_eq_cons_iff.1 single
  refine ⟨before, after, rfl, fun other each found => ?_⟩
  by_cases same : each = name
  · subst same
    rw [Function.update_self, List.filter_append, List.filter_eq_nil_iff.2 noneBefore,
      List.filter_cons_of_pos (by simp), noneAfter]
    rfl
  · have others := listed each found
    have apart : name ≠ each := Ne.symm same
    rw [Function.update_of_ne same, ← others]
    simp [List.filter_append, apart]

theorem Lists.replace (lists : Lists names texts s rest) (known : name ∈ names)
    (given : texts name = some text) :
    ∃ front back, front ≠ [] ∧ s = front ++ text ++ back ∧ ∀ other, RawText other →
      Lists names (Function.update texts name (some other)) (front ++ other ++ back) rest := by
  obtain ⟨lays, listed⟩ := lists
  obtain ⟨before, after, rfl, relisted⟩ := listed.replace known given
  obtain ⟨front, back, some, rfl, again⟩ := lays.replace
  exact ⟨front, back, some, rfl, fun other kept => ⟨again other kept, relisted other⟩⟩

/-- A text stays the text of a value where that of a member is replaced. -/
theorem Lists.rawText_replace {front back other : List Symbol} (some : front ≠ [])
    (kept : RawText (front ++ text ++ back)) (lists : Lists names texts (front ++ other ++ back) []) :
    RawText (front ++ other ++ back) := by
  obtain ⟨lays, -⟩ := lists
  obtain ⟨c, t, whole, visible, -⟩ := raw_starts kept
  refine raw_eq_ok.2 ⟨?_, lays.skipped⟩
  cases front with
  | nil => exact absurd rfl some
  | cons d front =>
    obtain ⟨rfl, -⟩ := List.cons.inj whole
    rw [List.append_nil]
    exact skipSpace_cons_of_visible visible

end

end ChannelAgent.Json
