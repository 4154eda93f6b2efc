import Mathlib.Data.List.Nodup
import ChannelAgent.Proofs.Json.Agreement
import ChannelAgent.Proofs.Json.Raw
import ChannelAgent.Proofs.Json.Records

set_option autoImplicit false

namespace ChannelAgent.Json

namespace Decoder

/-- A decoder takes from a text what a skipping reader takes, and looks no further. -/
structure Framed {α : Type} (d : Decoder α) : Prop where
  spaced : ∀ depth s, d.read depth (skipSpace s) = d.read depth s
  isLocal : ∀ depth, Local (d.read depth)
  skipped : ∀ {depth s x rest}, d.read depth s = .ok (x, rest) → Ends rest →
    skipValue s = .ok ((), rest)

section

variable {α β : Type} {d : Decoder α} {depth : Nat} {s rest : List Symbol} {x : α}

theorem Framed.read_iff (framed : d.Framed) (ends : Ends rest) :
    d.read depth s = .ok (x, rest) ↔
      ∃ v, raw s = .ok (v, rest) ∧ d.read depth v = .ok (x, []) := by
  constructor
  · intro read
    have skipped := framed.skipped read ends
    obtain ⟨v, whole, -⟩ := skipValue_passes skipped
    rw [← framed.spaced, whole] at read
    obtain ⟨taken, same, -, takes⟩ := framed.isLocal depth read
    obtain rfl := List.append_cancel_right same
    have alone := takes [] endsBefore_nil
    rw [List.append_nil] at alone
    exact ⟨v, raw_eq_ok.2 ⟨whole, skipped⟩, alone⟩
  · rintro ⟨v, kept, read⟩
    obtain ⟨taken, same, -, takes⟩ := framed.isLocal depth read
    rw [List.append_nil] at same
    rw [← framed.spaced, (raw_eq_ok.1 kept).1, same]
    exact takes rest ends

theorem framed_any : any.Framed where
  spaced _ _ := value_skipSpace
  isLocal := value_local
  skipped read _ := skipValue_of_value read

theorem string_eq_ok {text : String} : string.read depth s = .ok (text, rest) ↔
    ∃ t, skipSpace s = some '"' :: t ∧ stringToken t = .ok (text, rest) := by
  constructor
  · intro read
    simp only [string] at read
    split at read
    · rename_i t quote
      exact ⟨t, quote, read⟩
    · cases read
    · have none := toOption_refuse (α := String) (s := skipSpace s)
      rw [read] at none
      cases none
  · rintro ⟨t, quote, token⟩
    simp only [string, quote]
    exact token

theorem framed_string : string.Framed where
  spaced depth s := by
    simp only [string, skipSpace_skipSpace]
  isLocal depth := by
    intro s text rest read
    obtain ⟨t, quote, token⟩ := string_eq_ok.1 read
    obtain ⟨front, rfl, some, fronts⟩ := skipSpace_taken quote
    obtain ⟨taken, rfl, again, -⟩ := stringToken_extent token
    refine ⟨front ++ taken, by simp, by simp [some], fun more _ => string_eq_ok.2 ?_⟩
    exact ⟨taken ++ more, by rw [List.append_assoc, fronts], again more⟩
  skipped {depth s text rest} read _ := by
    obtain ⟨t, quote, token⟩ := string_eq_ok.1 read
    have whole : value 0 s = .ok (.string text, rest) := by
      rw [value_scalar quote (by decide) (by decide)]
      exact map_eq_ok.2 ⟨_, token, rfl⟩
    exact skipValue_of_value whole

theorem map_read_eq_ok {f : α → β} {y : β} : (d.map f).read depth s = .ok (y, rest) ↔
    ∃ x, d.read depth s = .ok (x, rest) ∧ f x = y := by
  simp only [Decoder.map, refine]
  cases d.read depth s with
  | error e => simp
  | ok r =>
    obtain ⟨x, rest'⟩ := r
    simp [and_comm]

theorem Framed.map (framed : d.Framed) (f : α → β) : (d.map f).Framed where
  spaced depth s := by
    simp only [Decoder.map, refine, framed.spaced]
  isLocal depth := by
    intro s y rest read
    obtain ⟨x, inner, rfl⟩ := map_read_eq_ok.1 read
    obtain ⟨taken, whole, some, takes⟩ := framed.isLocal depth inner
    exact ⟨taken, whole, some, fun more ends => map_read_eq_ok.2 ⟨x, takes more ends, rfl⟩⟩
  skipped read ends := by
    obtain ⟨x, read, -⟩ := map_read_eq_ok.1 read
    exact framed.skipped read ends

end

end Decoder

/-- The members of a record with their texts, as an object gives them, or a list by the order of
names. -/
inductive Lays (names : List String) : List Symbol → List (String × List Symbol) → List Symbol → Prop
  | object {s t rest : List Symbol} {ms : List (String × List Symbol)}
      (visible : skipSpace s = some '\x7b' :: t) (read : MembersRead raw true t ms rest) :
      Lays names s ms rest
  | list {s t rest : List Symbol} {items : List (List Symbol)} (visible : skipSpace s = some '[' :: t)
      (read : ElementsRead raw true t items rest) (fits : items.length ≤ names.length) :
      Lays names s (names.zip items) rest

namespace Record

/-- What members with their texts make of the state of a record. -/
inductive Fills {σ α : Type} (r : Record σ α) (depth : Nat) :
    (seen : List String) → σ → List (String × List Symbol) → σ → Prop
  | nothing {seen : List String} {state : σ} : Fills r depth seen state [] state
  | unknown {seen : List String} {state last : σ} {name : String} {text : List Symbol}
      {ms : List (String × List Symbol)} (field : r.field? name = none)
      (later : Fills r depth seen state ms last) : Fills r depth seen state ((name, text) :: ms) last
  | known {seen : List String} {state last : σ} {name : String} {text : List Symbol} {f : Field σ}
      {store : σ → σ} {ms : List (String × List Symbol)} (field : r.field? name = some f)
      (fresh : name ∉ seen) (read : f.decoder.read depth text = .ok (store, []))
      (later : Fills r depth (name :: seen) (store state) ms last) :
      Fills r depth seen state ((name, text) :: ms) last

/-- A record that ignores other names, and of which every field may be absent. -/
structure Lenient {σ α : Type} (r : Record σ α) : Prop where
  ignores : r.closed = false
  framed : ∀ f ∈ r.fields, f.decoder.Framed
  mayLack : ∀ f ∈ r.fields, f.mayLack = true
  distinct : r.names.Nodup

section

variable {σ α : Type} {r : Record σ α} {depth : Nat} {first : Bool} {seen : List String} {state : σ}
  {s rest bound : List Symbol} {x : α}

theorem Lenient.fills_of_members (lenient : r.Lenient)
    (read : r.readMembers depth first seen state bound s = .ok (x, rest)) :
    ∃ ms last, MembersRead raw first s ms rest ∧ r.Fills depth seen state ms last ∧
      r.finish last = some x := by
  induction bound generalizing first seen state s with
  | nil => cases read
  | cons b bound ih =>
    simp only [readMembers] at read
    split at read
    · cases read
    · rename_i closed
      split at read
      · rename_i finished
        obtain ⟨rfl, rfl⟩ := Prod.mk.inj (Except.ok.inj read)
        exact ⟨[], state, .closed (nextName_none.1 closed), .nothing, finished⟩
      · cases read
    · rename_i name t named
      split at read
      · rename_i field
        simp only [lenient.ignores, Bool.false_eq_true, ↓reduceIte] at read
        split at read
        · cases read
        · rename_i u joined
          split at read
          · cases read
          · rename_i v skipped
            obtain ⟨ms, last, members, fills, finished⟩ := ih read
            obtain ⟨text, whole, -⟩ := skipValue_passes skipped
            exact ⟨(name, text) :: ms, last,
              .member named joined (raw_eq_ok.2 ⟨whole, skipped⟩) members, .unknown field fills, finished⟩
      · rename_i f field
        split at read
        · cases read
        · rename_i fresh
          split at read
          · cases read
          · rename_i u joined
            split at read
            · cases read
            · rename_i store v stored
              obtain ⟨ms, last, members, fills, finished⟩ := ih read
              have framed := lenient.framed f (List.mem_of_find?_eq_some field)
              obtain ⟨text, kept, again⟩ := (framed.read_iff members.ends).1 stored
              exact ⟨(name, text) :: ms, last, .member named joined kept members,
                .known field fresh again fills, finished⟩

theorem Lenient.members_of_fills (lenient : r.Lenient) {ms : List (String × List Symbol)} {last : σ}
    (members : MembersRead raw first s ms rest) (fills : r.Fills depth seen state ms last)
    (finished : r.finish last = some x) (enough : s.length < bound.length) :
    r.readMembers depth first seen state bound s = .ok (x, rest) := by
  induction members generalizing seen state bound with
  | closed close =>
    cases bound with
    | nil => cases enough
    | cons b bound =>
      cases fills
      simp only [readMembers, nextName_none.2 close, finished]
  | member named joined kept members ih =>
    cases bound with
    | nil => cases enough
    | cons b bound =>
      have shorter := raw_local.shorter_member named joined kept
      rw [List.length_cons] at enough
      cases fills with
      | unknown field fills =>
        simp only [readMembers, named, field, lenient.ignores, joined, (raw_eq_ok.1 kept).2,
          Bool.false_eq_true, ↓reduceIte]
        exact ih fills (by omega)
      | @known _ _ _ _ _ f store _ field fresh read fills =>
        have framed := lenient.framed f (List.mem_of_find?_eq_some field)
        have stored := (framed.read_iff members.ends).2 ⟨_, kept, read⟩
        simp only [readMembers, named, field, if_neg fresh, joined, stored]
        exact ih fills (by omega)

theorem field?_of_mem (distinct : r.names.Nodup) {f : Field σ} (listed : f ∈ r.fields) :
    r.field? f.name = some f := by
  obtain ⟨g, found⟩ := exists_field (List.mem_map_of_mem listed)
  have same : g = f := List.inj_on_of_nodup_map distinct (List.mem_of_find?_eq_some found) listed
    (field?_name found)
  rw [found, same]

/-- Fields that are still to come in a list of values: none of them has been seen. -/
structure Ahead (r : Record σ α) (seen : List String) (fields : List (Field σ)) : Prop where
  listed : ∀ f ∈ fields, f ∈ r.fields
  fresh : ∀ f ∈ fields, f.name ∉ seen
  distinct : (fields.map Field.name).Nodup

theorem Ahead.next {f : Field σ} {fields : List (Field σ)} (ahead : r.Ahead seen (f :: fields)) :
    r.Ahead (f.name :: seen) fields where
  listed g later := ahead.listed g (List.mem_cons_of_mem f later)
  fresh g later again := by
    rcases List.mem_cons.1 again with same | old
    · exact (List.nodup_cons.1 ahead.distinct).1 (List.mem_map.2 ⟨g, later, same⟩)
    · exact ahead.fresh g (List.mem_cons_of_mem f later) old
  distinct := (List.nodup_cons.1 ahead.distinct).2

theorem Ahead.lack {f : Field σ} {fields : List (Field σ)} (ahead : r.Ahead seen (f :: fields)) :
    r.Ahead seen fields where
  listed g later := ahead.listed g (List.mem_cons_of_mem f later)
  fresh g later := ahead.fresh g (List.mem_cons_of_mem f later)
  distinct := (List.nodup_cons.1 ahead.distinct).2

theorem Lenient.fills_of_elements (lenient : r.Lenient) {fields : List (Field σ)}
    (ahead : r.Ahead seen fields)
    (read : r.readElements depth first state fields s = .ok (x, rest)) :
    ∃ items last, ElementsRead raw first s items rest ∧ items.length ≤ fields.length ∧
      r.Fills depth seen state ((fields.map Field.name).zip items) last ∧ r.finish last = some x := by
  induction fields generalizing first seen state s with
  | nil =>
    simp only [readElements] at read
    split at read
    · cases read
    · rename_i finished
      obtain ⟨t, closed, same⟩ := map_eq_ok.1 read
      obtain ⟨rfl, rfl⟩ := Prod.mk.inj same
      exact ⟨[], state, .closed (closeList_ok.1 closed), Nat.le_refl _, .nothing, finished⟩
  | cons f fields ih =>
    have listed := ahead.listed f (List.mem_cons_self ..)
    simp only [readElements] at read
    split at read
    · cases read
    · rename_i t closed
      simp only [lenient.mayLack f listed, ↓reduceIte] at read
      obtain ⟨u, close, rfl⟩ := nextElement_false.1 closed
      obtain ⟨items, last, elements, fits, fills, finished⟩ := ih ahead.lack read
      have bracket : skipSpace (some ']' :: u) = some ']' :: u := skipSpace_cons_of_visible (by decide)
      -- behind a closing bracket no further element comes
      cases elements with
      | closed again =>
        obtain rfl := (List.cons.inj (bracket.symm.trans again)).2
        refine ⟨[], last, .closed close, Nat.zero_le _, ?_, finished⟩
        rwa [List.zip_nil_right] at fills ⊢
      | element next _ _ => cases (nextElement_false.2 ⟨u, bracket, rfl⟩).symm.trans next
    · rename_i t next
      split at read
      · cases read
      · rename_i store u stored
        obtain ⟨items, last, elements, fits, fills, finished⟩ := ih ahead.next read
        obtain ⟨text, kept, again⟩ := ((lenient.framed f listed).read_iff elements.ends).1 stored
        refine ⟨text :: items, last, .element next kept elements, Nat.succ_le_succ fits, ?_, finished⟩
        exact .known (field?_of_mem lenient.distinct listed) (ahead.fresh f (List.mem_cons_self ..))
          again fills

theorem Lenient.elements_of_fills (lenient : r.Lenient) {fields : List (Field σ)}
    (ahead : r.Ahead seen fields) {items : List (List Symbol)} {last : σ}
    (elements : ElementsRead raw first s items rest) (fits : items.length ≤ fields.length)
    (fills : r.Fills depth seen state ((fields.map Field.name).zip items) last)
    (finished : r.finish last = some x) :
    r.readElements depth first state fields s = .ok (x, rest) := by
  induction fields generalizing first seen state s items with
  | nil =>
    obtain rfl := List.eq_nil_of_length_eq_zero (Nat.le_zero.1 fits)
    cases elements with
    | closed close =>
      cases fills
      simp only [readElements, finished, closeList_ok.2 close]
      rfl
  | cons f fields ih =>
    have listed := ahead.listed f (List.mem_cons_self ..)
    cases elements with
    | closed close =>
      simp only [readElements, nextElement_false.2 ⟨_, close, rfl⟩, lenient.mayLack f listed, ↓reduceIte]
      refine ih ahead.lack (.closed (skipSpace_cons_of_visible (by decide))) (Nat.zero_le _) ?_
      rwa [List.zip_nil_right] at fills ⊢
    | element next kept elements =>
      rw [List.map_cons, List.zip_cons_cons] at fills
      cases fills with
      | unknown field _ => cases field.symm.trans (field?_of_mem lenient.distinct listed)
      | known field fresh read fills =>
        obtain rfl := Option.some.inj ((field?_of_mem lenient.distinct listed).symm.trans field)
        have stored := ((lenient.framed f listed).read_iff elements.ends).2 ⟨_, kept, read⟩
        simp only [readElements, next, stored]
        exact ih ahead.next elements (Nat.le_of_succ_le_succ fits) fills

theorem Lenient.ahead (lenient : r.Lenient) : r.Ahead [] r.fields :=
  ⟨fun _ => id, fun _ _ => List.not_mem_nil, lenient.distinct⟩

/-- A record is read just if its members are laid out and their texts fill it. -/
theorem Lenient.read_iff (lenient : r.Lenient) :
    r.decoder.read (depth + 1) s = .ok (x, rest) ↔
      ∃ ms last, Lays r.names s ms rest ∧ r.Fills depth [] r.initial ms last ∧
        r.finish last = some x := by
  constructor
  · intro read
    simp only [decoder] at read
    split at read
    · cases read
    · rename_i visible
      obtain ⟨ms, last, members, fills, finished⟩ := lenient.fills_of_members read
      exact ⟨ms, last, .object visible members, fills, finished⟩
    · rename_i visible
      obtain ⟨items, last, elements, fits, fills, finished⟩ :=
        lenient.fills_of_elements lenient.ahead read
      refine ⟨_, last, .list visible elements ?_, fills, finished⟩
      rwa [names, List.length_map]
    · have none := Decoder.toOption_refuse (α := α) (s := skipSpace s)
      rw [read] at none
      cases none
  · rintro ⟨ms, last, lays, fills, finished⟩
    cases lays with
    | object visible members =>
      simp only [decoder, visible]
      exact lenient.members_of_fills members fills finished (Nat.lt_succ_self _)
    | list visible elements fits =>
      simp only [decoder, visible]
      refine lenient.elements_of_fills lenient.ahead elements ?_ fills finished
      rwa [names, List.length_map] at fits

theorem read_zero : r.decoder.read 0 s ≠ .ok (x, rest) := by
  intro read
  simp only [decoder] at read
  split at read
  · cases read
  · cases read
  · cases read
  · have none := Decoder.toOption_refuse (α := α) (s := skipSpace s)
    rw [read] at none
    cases none

end

end Record

section

variable {names : List String} {s rest : List Symbol} {ms : List (String × List Symbol)}

theorem Lays.extent (lays : Lays names s ms rest) :
    ∃ taken, s = taken ++ rest ∧ taken ≠ [] ∧ ∀ more, Lays names (taken ++ more) ms more := by
  cases lays with
  | object visible read =>
    obtain ⟨front, rfl, some, fronts⟩ := skipSpace_taken visible
    obtain ⟨taken, rfl, -, again⟩ := read.extent raw_local
    refine ⟨front ++ taken, by simp, by simp [some], fun more => ?_⟩
    rw [List.append_assoc]
    exact .object (fronts _) (again more)
  | list visible read fits =>
    obtain ⟨front, rfl, some, fronts⟩ := skipSpace_taken visible
    obtain ⟨taken, rfl, -, again⟩ := read.extent raw_local
    refine ⟨front ++ taken, by simp, by simp [some], fun more => ?_⟩
    rw [List.append_assoc]
    exact .list (fronts _) (again more) fits

theorem Lays.skipped (lays : Lays names s ms rest) : skipValue s = .ok ((), rest) := by
  cases lays with
  | object visible read =>
    exact skipValue_of_skips ((skips_open false visible).trans (members_skip raw_skips read []))
  | list visible read fits =>
    exact skipValue_of_skips ((skips_open true visible).trans (elements_skip raw_skips read []))

theorem Record.Lenient.framed_decoder {σ α : Type} {r : Record σ α} (lenient : r.Lenient) :
    r.decoder.Framed where
  spaced depth s := by
    simp only [Record.decoder, skipSpace_skipSpace]
  isLocal depth := by
    intro s x rest read
    cases depth with
    | zero => exact absurd read Record.read_zero
    | succ depth =>
      obtain ⟨ms, last, lays, fills, finished⟩ := lenient.read_iff.1 read
      obtain ⟨taken, whole, some, again⟩ := lays.extent
      refine ⟨taken, whole, some, fun more _ => lenient.read_iff.2 ?_⟩
      exact ⟨ms, last, again more, fills, finished⟩
  skipped {depth s x rest} read _ := by
    cases depth with
    | zero => exact absurd read Record.read_zero
    | succ depth =>
      obtain ⟨ms, last, lays, -⟩ := lenient.read_iff.1 read
      exact lays.skipped

end

end ChannelAgent.Json
