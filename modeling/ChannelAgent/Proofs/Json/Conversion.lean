import Mathlib.Data.List.Forall2
import ChannelAgent.Json.Variant

set_option autoImplicit false

namespace ChannelAgent.Json

/-- A result follows another one: both are there and end at the same place, or the first one does
not convert, or neither is there. -/
inductive Follows {α β : Type} (related : α → Option β → Prop) :
    Except Fault (α × List Symbol) → Except Fault (β × List Symbol) → Prop
  | both {x : α} {y : β} {rest : List Symbol} (converts : related x (some y)) :
      Follows related (.ok (x, rest)) (.ok (y, rest))
  | refused {x : α} {rest : List Symbol} (spoiled : related x none) :
      Follows related (.ok (x, rest)) (.error .mismatched)
  | neither {fault fault' : Fault} : Follows related (.error fault) (.error fault')

/-- A decoder follows another one, on the text and on buffered values. -/
structure Decoder.Follows {α β : Type} (related : α → Option β → Prop) (e : Decoder α)
    (d : Decoder β) : Prop where
  read : ∀ depth s, Json.Follows related (e.read depth s) (d.read depth s)
  buffered : ∀ v x, e.ofValue? v = some x → related x (d.ofValue? v)
  refuses : ∀ v, e.ofValue? v = none → d.ofValue? v = none

/-- What is related is the conversion. -/
abbrev Converts {α β : Type} (f : α → Option β) (x : α) (y : Option β) : Prop := y = f x

section

variable {α β γ δ : Type} {related : α → Option β → Prop} {related' : γ → Option δ → Prop}
  {e : Decoder α} {d : Decoder β}

theorem Follows.of_ok {x : α} {rest : List Symbol} {q : Except Fault (β × List Symbol)}
    (follows : Follows related (.ok (x, rest)) q) :
    (∃ y, related x (some y) ∧ q = .ok (y, rest)) ∨ (related x none ∧ q = .error .mismatched) := by
  cases follows with
  | both converts => exact .inl ⟨_, converts, rfl⟩
  | refused spoiled => exact .inr ⟨spoiled, rfl⟩

theorem follows_refuse (s : List Symbol) : Follows related (refuse s) (refuse s) := by
  simp only [refuse]
  cases token (fun _ => .error .mismatched) (fun _ => .error .mismatched) s <;> exact .neither

theorem Follows.map {p : Except Fault (α × List Symbol)} {q : Except Fault (β × List Symbol)}
    (follows : Follows related p q) {h : α → γ} {k : β → δ}
    (keeps : ∀ x y, related x y → related' (h x) (y.map k)) :
    Follows related' (p.map fun r => (h r.1, r.2)) (q.map fun r => (k r.1, r.2)) := by
  cases follows with
  | both converts => exact .both (keeps _ _ converts)
  | refused spoiled => exact .refused (keeps _ _ spoiled)
  | neither => exact .neither

namespace Decoder

theorem Follows.refl (d : Decoder α) : d.Follows (Converts some) d where
  read depth s := by
    cases d.read depth s with
    | error fault => exact .neither
    | ok r => exact .both rfl
  buffered _ _ decoded := decoded
  refuses _ refused := refused

theorem follows_refine (e : Decoder α) (f : α → Option β) : e.Follows (Converts f) (e.refine f) where
  read depth s := by
    simp only [refine]
    cases e.read depth s with
    | error fault => exact .neither
    | ok r =>
      cases converted : f r.1 with
      | none =>
        simp only [converted]
        exact .refused converted.symm
      | some y =>
        simp only [converted]
        exact .both converted.symm
  buffered v x decoded := by
    simp only [refine, decoded, Option.bind_some]
  refuses v refused := by
    simp only [refine, refused, Option.bind_none]

theorem read_map (d : Decoder α) (h : α → γ) (depth : Nat) (s : List Symbol) :
    (d.map h).read depth s = (d.read depth s).map fun r => (h r.1, r.2) := by
  simp only [Decoder.map, refine]
  cases d.read depth s <;> rfl

theorem ofValue_map (d : Decoder α) (h : α → γ) (v : Value) :
    (d.map h).ofValue? v = (d.ofValue? v).map h := by
  simp only [Decoder.map, refine]
  cases d.ofValue? v <;> rfl

theorem Follows.map (follows : e.Follows related d) {h : α → γ} {k : β → δ}
    (keeps : ∀ x y, related x y → related' (h x) (y.map k)) : (e.map h).Follows related' (d.map k) where
  read depth s := by
    rw [read_map, read_map]
    exact (follows.read depth s).map keeps
  buffered v z decoded := by
    rw [ofValue_map, Option.map_eq_some_iff] at decoded
    obtain ⟨x, decoded, rfl⟩ := decoded
    rw [ofValue_map]
    exact keeps _ _ (follows.buffered v x decoded)
  refuses v refused := by
    rw [ofValue_map, Option.map_eq_none_iff] at refused
    rw [ofValue_map, follows.refuses v refused]
    rfl

theorem Follows.optional (follows : e.Follows related d)
    {related' : Option α → Option (Option β) → Prop} (absent : related' none (some none))
    (present : ∀ x y, related x y → related' (some x) (y.map some)) :
    e.optional.Follows related' d.optional where
  read depth s := by
    simp only [Decoder.optional]
    split
    · rename_i rest _
      cases keyword ['u', 'l', 'l'] rest with
      | error fault => exact .neither
      | ok rest => exact .both absent
    · exact (follows.read depth _).map present
  buffered v x decoded := by
    cases v with
    | null =>
      obtain rfl := Option.some.inj decoded
      exact absent
    | _ =>
      obtain ⟨y, found, rfl⟩ := Option.map_eq_some_iff.1 decoded
      exact present _ _ (follows.buffered _ y found)
  refuses v refused := by
    cases v with
    | null => cases refused
    | _ => exact Option.map_eq_none_iff.2 (follows.refuses _ (Option.map_eq_none_iff.1 refused))

/-- A whole text is converted or refused as a mismatch, if the first decoder takes it. -/
theorem parse_follows {f : α → Option β}
    (follows : ∀ s, Json.Follows (Converts f) (e.read depthLimit s) (d.read depthLimit s))
    (s : List Symbol) :
    (∀ x, e.parse s = .ok x →
      d.parse s = match f x with
        | some y => .ok y
        | none => .error .mismatched) ∧
      ∀ fault, e.parse s = .error fault → ∃ fault', d.parse s = .error fault' := by
  have read := follows s
  unfold Decoder.parse
  generalize e.read depthLimit s = p at read ⊢
  generalize d.read depthLimit s = q at read ⊢
  cases read with
  | both converts =>
    simp only
    split
    · refine ⟨fun x same => ?_, nofun⟩
      obtain rfl := Except.ok.inj same
      rw [← converts]
    · exact ⟨nofun, fun _ _ => ⟨_, rfl⟩⟩
  | refused spoiled =>
    simp only
    refine ⟨fun x same => ?_, fun _ _ => ⟨_, rfl⟩⟩
    split at same
    · obtain rfl := Except.ok.inj same
      rw [← spoiled]
    · cases same
  | neither => exact ⟨nofun, fun _ _ => ⟨_, rfl⟩⟩

end Decoder

end

/-- What the value of a field does to a state, or what it does once converted. Only the culprit may
fail to convert, or make good what was spoiled. -/
structure Stores {σ τ : Type} (convert : σ → Option τ) (culprit name : String) (store : σ → σ)
    (stored : Option (τ → τ)) : Prop where
  converts : ∀ a b, convert a = some b → convert (store a) = stored.map fun store => store b
  innocent : name ≠ culprit → stored.isSome = true ∧ ∀ a, convert a = none → convert (store a) = none

theorem Stores.culprit {σ τ : Type} {convert : σ → Option τ} {culprit name : String} {store : σ → σ}
    (stores : Stores convert culprit name store none) : name = culprit :=
  Decidable.byContradiction fun other => nomatch (stores.innocent other).1

/-- The same field, with its value converted. -/
structure Field.Follows {σ τ : Type} (convert : σ → Option τ) (culprit : String) (g : Field σ)
    (f : Field τ) : Prop where
  name : g.name = f.name
  mayLack : g.mayLack = f.mayLack
  decoder : g.decoder.Follows (Stores convert culprit g.name) f.decoder

/-- The same record, with its state and its value converted. -/
structure Record.Follows {σ τ α β : Type} (convert : σ → Option τ) (culprit : String)
    (f : α → Option β) (q : Record σ α) (r : Record τ β) : Prop where
  fields : List.Forall₂ (Field.Follows convert culprit) q.fields r.fields
  distinct : (q.fields.map Field.name).Nodup
  initial : convert q.initial = some r.initial
  finish : ∀ a, (q.finish a).bind f = (convert a).bind r.finish
  closed : q.closed = r.closed

namespace Record

section

variable {σ τ α β : Type} {convert : σ → Option τ} {culprit : String} {f : α → Option β}
  {q : Record σ α} {r : Record τ β}

theorem find_follows {gs : List (Field σ)} {hs : List (Field τ)}
    (fields : List.Forall₂ (Field.Follows convert culprit) gs hs) (name : String) :
    (gs.find? (fun g => g.name = name) = none ∧ hs.find? (fun h => h.name = name) = none) ∨
      ∃ g h, gs.find? (fun g => g.name = name) = some g ∧ hs.find? (fun h => h.name = name) = some h ∧
        g.name = name ∧ g.Follows convert culprit h := by
  induction fields with
  | nil => exact .inl ⟨rfl, rfl⟩
  | @cons g h gs hs here _ ih =>
    by_cases same : g.name = name
    · have same' : h.name = name := here.name ▸ same
      exact .inr ⟨g, h, by simp [same], by simp [same'], same, here⟩
    · have other : h.name ≠ name := here.name ▸ same
      simpa [same, other] using ih

theorem follows_mismatched {p : Except Fault (α × List Symbol)}
    (spoiled : ∀ x rest, p = .ok (x, rest) → f x = none) :
    Json.Follows (β := β) (Converts f) p (.error .mismatched) := by
  cases p with
  | error fault => exact .neither
  | ok r => exact .refused (spoiled r.1 r.2 rfl).symm

variable {depth : Nat} {first : Bool} {seen : List String} {a : σ} {b : τ} {s rest : List Symbol}
  {bound : List Symbol} {x : α}

theorem Follows.spoiled_finish (follows : q.Follows convert culprit f r) (spoiled : convert a = none)
    (done : q.finish a = some x) : f x = none := by
  have finish := follows.finish a
  rw [done, spoiled] at finish
  exact finish

/-- Once the culprit has been read, nothing can make it good. -/
theorem Follows.spoiled_members (follows : q.Follows convert culprit f r)
    (spoiled : convert a = none) (caught : culprit ∈ seen)
    (read : q.readMembers depth first seen a bound s = .ok (x, rest)) : f x = none := by
  induction bound generalizing first seen a s with
  | nil => cases read
  | cons _ bound ih =>
    rw [readMembers] at read
    split at read
    · cases read
    · split at read
      · rename_i done
        obtain ⟨rfl, -⟩ := Prod.mk.inj (Except.ok.inj read)
        exact follows.spoiled_finish spoiled done
      · cases read
    · rename_i name t named
      rcases find_follows follows.fields name with ⟨unknown, -⟩ | ⟨g, h, known, -, rfl, field⟩
      · rw [show q.field? name = none from unknown] at read
        simp only at read
        split at read
        · cases read
        · split at read
          · cases read
          · split at read
            · cases read
            · exact ih spoiled caught read
      · rw [show q.field? g.name = some g from known] at read
        simp only at read
        split at read
        · cases read
        · rename_i fresh
          split at read
          · cases read
          · rename_i u joined
            have next := field.decoder.read depth u
            split at read
            · cases read
            · rename_i store v stored
              rw [stored] at next
              have innocent : g.name ≠ culprit := fun same => fresh (same ▸ caught)
              have kept : convert (store a) = none := by
                rcases next.of_ok with ⟨y, stores, -⟩ | ⟨stores, -⟩
                · exact (stores.innocent innocent).2 a spoiled
                · exact (stores.innocent innocent).2 a spoiled
              exact ih kept (List.mem_cons_of_mem _ caught) read

theorem Follows.members (follows : q.Follows convert culprit f r) (synced : convert a = some b) :
    Json.Follows (Converts f) (q.readMembers depth first seen a bound s)
      (r.readMembers depth first seen b bound s) := by
  induction bound generalizing first seen a b s with
  | nil => exact .neither
  | cons _ bound ih =>
    have finish := follows.finish a
    rw [synced, Option.bind_some] at finish
    simp only [readMembers]
    cases nextName first s with
    | error fault => exact .neither
    | ok next =>
      obtain ⟨_ | name, t⟩ := next
      · cases done : q.finish a with
        | none =>
          rw [done, Option.bind_none] at finish
          simp only [← finish]
          exact .neither
        | some x =>
          rw [done, Option.bind_some] at finish
          cases done' : r.finish b with
          | none => exact .refused (finish.trans done').symm
          | some y => exact .both (finish.trans done').symm
      · simp only
        rcases find_follows follows.fields name with ⟨unknown, unknown'⟩ | known
        · rw [show q.field? name = none from unknown, show r.field? name = none from unknown',
            follows.closed]
          simp only
          split
          · exact .neither
          · cases colon t with
            | error fault => exact .neither
            | ok u =>
              simp only
              cases skipValue u with
              | error fault => exact .neither
              | ok v => exact ih synced
        · obtain ⟨g, h, known, known', rfl, field⟩ := known
          rw [show q.field? g.name = some g from known, show r.field? g.name = some h from known']
          simp only
          split
          · exact .neither
          · cases colon t with
            | error fault => exact .neither
            | ok u =>
              have next := field.decoder.read depth u
              simp only
              generalize g.decoder.read depth u = p at next ⊢
              generalize h.decoder.read depth u = p' at next ⊢
              cases next with
              | both stores => exact ih (stores.converts a b synced)
              | refused spoils =>
                refine follows_mismatched fun x rest read => ?_
                have caught : culprit ∈ g.name :: seen := spoils.culprit ▸ List.mem_cons_self
                exact follows.spoiled_members (spoils.converts a b synced) caught read
              | neither => exact .neither

/-- The fields behind the culprit in a list of values cannot make it good. -/
theorem Follows.spoiled_elements (follows : q.Follows convert culprit f r) {gs : List (Field σ)}
    {hs : List (Field τ)} (fields : List.Forall₂ (Field.Follows convert culprit) gs hs)
    (innocent : ∀ g ∈ gs, g.name ≠ culprit) (spoiled : convert a = none)
    (read : q.readElements depth first a gs s = .ok (x, rest)) : f x = none := by
  induction fields generalizing first a s with
  | nil =>
    rw [readElements] at read
    split at read
    · cases read
    · rename_i done
      cases closed : closeList s with
      | error fault =>
        rw [closed] at read
        cases read
      | ok t =>
        rw [closed] at read
        obtain ⟨rfl, -⟩ := Prod.mk.inj (Except.ok.inj read)
        exact follows.spoiled_finish spoiled done
  | @cons g h gs hs field _ ih =>
    obtain ⟨here, later⟩ := List.forall_mem_cons.1 innocent
    rw [readElements] at read
    split at read
    · cases read
    · split at read
      · exact ih later spoiled read
      · cases read
    · rename_i t _
      have next := field.decoder.read depth t
      split at read
      · cases read
      · rename_i store u stored
        rw [stored] at next
        have kept : convert (store a) = none := by
          rcases next.of_ok with ⟨y, stores, -⟩ | ⟨stores, -⟩
          · exact (stores.innocent here).2 a spoiled
          · exact (stores.innocent here).2 a spoiled
        exact ih later kept read

theorem Follows.elements (follows : q.Follows convert culprit f r) {gs : List (Field σ)}
    {hs : List (Field τ)} (fields : List.Forall₂ (Field.Follows convert culprit) gs hs)
    (distinct : (gs.map Field.name).Nodup) (synced : convert a = some b) :
    Json.Follows (Converts f) (q.readElements depth first a gs s)
      (r.readElements depth first b hs s) := by
  induction fields generalizing first a b s with
  | nil =>
    have finish := follows.finish a
    rw [synced, Option.bind_some] at finish
    simp only [readElements]
    cases done : q.finish a with
    | none =>
      rw [done, Option.bind_none] at finish
      simp only [← finish]
      exact .neither
    | some x =>
      rw [done, Option.bind_some] at finish
      cases closeList s with
      | error fault => cases r.finish b <;> exact .neither
      | ok t =>
        cases done' : r.finish b with
        | none => exact .refused (finish.trans done').symm
        | some y => exact .both (finish.trans done').symm
  | @cons g h gs hs field others ih =>
    rw [List.map_cons, List.nodup_cons] at distinct
    obtain ⟨here, distinct⟩ := distinct
    simp only [readElements, field.mayLack]
    cases nextElement first s with
    | error fault => exact .neither
    | ok next =>
      obtain ⟨_ | _, t⟩ := next
      · simp only
        split
        · exact ih distinct synced
        · exact .neither
      · have next := field.decoder.read depth t
        simp only
        generalize g.decoder.read depth t = p at next ⊢
        generalize h.decoder.read depth t = p' at next ⊢
        cases next with
        | both stores => exact ih distinct (stores.converts a b synced)
        | refused spoils =>
          refine follows_mismatched fun x rest read => ?_
          have innocent : ∀ g' ∈ gs, g'.name ≠ culprit := by
            intro g' found same
            exact here (List.mem_map.2 ⟨g', found, same.trans spoils.culprit.symm⟩)
          exact follows.spoiled_elements others innocent (spoils.converts a b synced) read
        | neither => exact .neither

theorem Follows.spoiled_ofMembers (follows : q.Follows convert culprit f r)
    (spoiled : convert a = none) (caught : culprit ∈ seen) {ms : List (String × Value)}
    (decoded : q.ofMembers? seen a ms = some x) : f x = none := by
  induction ms generalizing seen a with
  | nil => exact follows.spoiled_finish spoiled decoded
  | cons m ms ih =>
    obtain ⟨name, v⟩ := m
    rw [ofMembers?] at decoded
    rcases find_follows follows.fields name with ⟨unknown, -⟩ | ⟨g, h, known, -, rfl, field⟩
    · rw [show q.field? name = none from unknown] at decoded
      simp only at decoded
      split at decoded
      · cases decoded
      · exact ih spoiled caught decoded
    · rw [show q.field? g.name = some g from known] at decoded
      simp only at decoded
      split at decoded
      · cases decoded
      · rename_i fresh
        split at decoded
        · cases decoded
        · rename_i store stored
          have innocent : g.name ≠ culprit := fun same => fresh (same ▸ caught)
          have stores := field.decoder.buffered v store stored
          exact ih ((stores.innocent innocent).2 a spoiled) (List.mem_cons_of_mem _ caught) decoded

theorem Follows.ofMembers (follows : q.Follows convert culprit f r) (synced : convert a = some b)
    (ms : List (String × Value)) :
    r.ofMembers? seen b ms = (q.ofMembers? seen a ms).bind f := by
  induction ms generalizing seen a b with
  | nil =>
    have finish := follows.finish a
    rw [synced, Option.bind_some] at finish
    exact finish.symm
  | cons m ms ih =>
    obtain ⟨name, v⟩ := m
    simp only [ofMembers?]
    rcases find_follows follows.fields name with ⟨unknown, unknown'⟩ | known
    · rw [show q.field? name = none from unknown, show r.field? name = none from unknown',
        follows.closed]
      simp only
      split
      · rfl
      · exact ih synced
    · obtain ⟨g, h, known, known', rfl, field⟩ := known
      rw [show q.field? g.name = some g from known, show r.field? g.name = some h from known']
      simp only
      split
      · rfl
      · cases decoded : g.decoder.ofValue? v with
        | none =>
          rw [field.decoder.refuses v decoded]
          rfl
        | some store =>
          have stores := field.decoder.buffered v store decoded
          simp only
          cases decoded' : h.decoder.ofValue? v with
          | some store' =>
            rw [decoded'] at stores
            exact ih (stores.converts a b synced)
          | none =>
            rw [decoded'] at stores
            simp only
            cases done : q.ofMembers? (g.name :: seen) (store a) ms with
            | none => rfl
            | some x =>
              have caught : culprit ∈ g.name :: seen := stores.culprit ▸ List.mem_cons_self
              exact (follows.spoiled_ofMembers (stores.converts a b synced) caught done).symm

theorem Follows.spoiled_ofElements (follows : q.Follows convert culprit f r) {gs : List (Field σ)}
    {hs : List (Field τ)} (fields : List.Forall₂ (Field.Follows convert culprit) gs hs)
    (innocent : ∀ g ∈ gs, g.name ≠ culprit) (spoiled : convert a = none) {items : List Value}
    (decoded : q.ofElements? a gs items = some x) : f x = none := by
  induction fields generalizing a items with
  | nil =>
    cases items with
    | nil => exact follows.spoiled_finish spoiled decoded
    | cons v items => cases decoded
  | @cons g h gs hs field _ ih =>
    obtain ⟨here, later⟩ := List.forall_mem_cons.1 innocent
    cases items with
    | nil =>
      rw [ofElements?] at decoded
      split at decoded
      · exact ih later spoiled decoded
      · cases decoded
    | cons v items =>
      rw [ofElements?] at decoded
      split at decoded
      · cases decoded
      · rename_i store stored
        have stores := field.decoder.buffered v store stored
        exact ih later ((stores.innocent here).2 a spoiled) decoded

theorem Follows.ofElements (follows : q.Follows convert culprit f r) {gs : List (Field σ)}
    {hs : List (Field τ)} (fields : List.Forall₂ (Field.Follows convert culprit) gs hs)
    (distinct : (gs.map Field.name).Nodup) (synced : convert a = some b) (items : List Value) :
    r.ofElements? b hs items = (q.ofElements? a gs items).bind f := by
  induction fields generalizing a b items with
  | nil =>
    cases items with
    | nil =>
      have finish := follows.finish a
      rw [synced, Option.bind_some] at finish
      exact finish.symm
    | cons v items => rfl
  | @cons g h gs hs field others ih =>
    rw [List.map_cons, List.nodup_cons] at distinct
    obtain ⟨here, distinct⟩ := distinct
    cases items with
    | nil =>
      simp only [ofElements?, field.mayLack]
      split
      · exact ih distinct synced []
      · rfl
    | cons v items =>
      simp only [ofElements?]
      cases decoded : g.decoder.ofValue? v with
      | none =>
        rw [field.decoder.refuses v decoded]
        rfl
      | some store =>
        have stores := field.decoder.buffered v store decoded
        simp only
        cases decoded' : h.decoder.ofValue? v with
        | some store' =>
          rw [decoded'] at stores
          exact ih distinct (stores.converts a b synced) items
        | none =>
          rw [decoded'] at stores
          simp only
          cases done : q.ofElements? (store a) gs items with
          | none => rfl
          | some x =>
            have innocent : ∀ g' ∈ gs, g'.name ≠ culprit := fun g' found same =>
              here (List.mem_map.2 ⟨g', found, same.trans stores.culprit.symm⟩)
            exact (follows.spoiled_ofElements others innocent (stores.converts a b synced) done).symm

/-- Two records that differ in what they make of the same state. -/
theorem follows_of_finish {q : Record σ α} {r : Record σ β} (fields : q.fields = r.fields)
    (distinct : (q.fields.map Field.name).Nodup) (initial : q.initial = r.initial)
    (finish : ∀ a, (q.finish a).bind f = r.finish a) (closed : q.closed = r.closed) :
    q.Follows some culprit f r := by
  refine ⟨?_, distinct, congrArg some initial, finish, closed⟩
  rw [← fields]
  refine List.forall₂_same.2 fun g _ => ⟨rfl, rfl, ?_⟩
  have stores (store : σ → σ) : Stores some culprit g.name store (some store) := by
    refine ⟨?_, fun _ => ⟨rfl, nofun⟩⟩
    rintro a _ ⟨⟩
    rfl
  have same := Decoder.Follows.refl g.decoder
  refine ⟨fun depth s => ?_, fun v store decoded => ?_, same.refuses⟩
  · cases g.decoder.read depth s with
    | error fault => exact .neither
    | ok r => exact .both (stores r.1)
  · rw [decoded]
    exact stores store

/-- A record follows another one if their fields do. -/
theorem Follows.decoder (convert : σ → Option τ) (culprit : String)
    (follows : q.Follows convert culprit f r) :
    q.decoder.Follows (Converts f) r.decoder where
  read depth s := by
    simp only [Record.decoder]
    split
    · exact .neither
    · cases depth with
      | zero => exact .neither
      | succ depth => exact follows.members follows.initial
    · cases depth with
      | zero => exact .neither
      | succ depth => exact follows.elements follows.fields follows.distinct follows.initial
    · exact follows_refuse _
  buffered v x decoded := by
    cases v with
    | object ms => exact (follows.ofMembers follows.initial ms).trans (congrArg (·.bind f) decoded)
    | list items =>
      exact (follows.ofElements follows.fields follows.distinct follows.initial items).trans
        (congrArg (·.bind f) decoded)
    | _ => cases decoded
  refuses v refused := by
    cases v with
    | object ms => exact (follows.ofMembers follows.initial ms).trans (congrArg (·.bind f) refused)
    | list items =>
      exact (follows.ofElements follows.fields follows.distinct follows.initial items).trans
        (congrArg (·.bind f) refused)
    | _ => rfl

end

end Record

namespace Variants

section

variable {α β : Type} {f : α → Option β} {ws : Variants α} {vs : Variants β}

/-- What is decoded from a buffered value, and what is decoded from it once converted. -/
def DecodesTo (f : α → Option β) (g : Value → Option α) (h : Value → Option β) : Prop :=
  ∀ v, h v = (g v).bind f

/-- The same tags, with the variants converted. -/
def Follow (f : α → Option β) (ws : Variants α) (vs : Variants β) : Prop :=
  List.Forall₂ (fun w v => w.1 = v.1 ∧ DecodesTo f w.2 v.2) ws vs

/-- The variant of the tag, if it has been read. -/
inductive Tagged (f : α → Option β) :
    Option (Value → Option α) → Option (Value → Option β) → Prop
  | untagged : Tagged f none none
  | tagged {g : Value → Option α} {h : Value → Option β} (decodes : DecodesTo f g h) :
      Tagged f (some g) (some h)

theorem Follow.variant (follow : Follow f ws vs) (tag : String) :
    Tagged f (ws.variant? tag) (vs.variant? tag) := by
  unfold variant?
  induction follow with
  | nil => exact .untagged
  | @cons w v ws vs here _ ih =>
    obtain ⟨same, decodes⟩ := here
    by_cases found : w.1 = tag
    · have found' : v.1 = tag := same ▸ found
      simpa [found, found'] using Tagged.tagged decodes
    · have other : v.1 ≠ tag := same ▸ found
      simpa [found, other] using ih

theorem Follow.readTag (follow : Follow f ws vs) (s : List Symbol) :
    (∃ fault fault', ws.readTag s = .error fault ∧ vs.readTag s = .error fault') ∨
      ∃ g h rest, DecodesTo f g h ∧ ws.readTag s = .ok (g, rest) ∧ vs.readTag s = .ok (h, rest) := by
  simp only [Variants.readTag, Decoder.refine]
  cases Decoder.string.read 0 s with
  | error fault => exact .inl ⟨_, _, rfl, rfl⟩
  | ok r =>
    obtain ⟨tag, rest⟩ := r
    have tagged := follow.variant tag
    simp only
    generalize ws.variant? tag = g at tagged ⊢
    generalize vs.variant? tag = h at tagged ⊢
    cases tagged with
    | untagged => exact .inl ⟨_, _, rfl, rfl⟩
    | tagged decodes => exact .inr ⟨_, _, rest, decodes, rfl, rfl⟩

/-- What is decoded in the end is converted in the end. -/
theorem DecodesTo.follows {g : Value → Option α} {h : Value → Option β} (decodes : DecodesTo f g h)
    (v : Value) (rest : List Symbol) :
    Json.Follows (Converts f)
      (match g v with
        | some x => .ok (x, rest)
        | none => .error .mismatched)
      (match h v with
        | some y => .ok (y, rest)
        | none => .error .mismatched) := by
  rw [decodes v]
  cases g v with
  | none => exact .neither
  | some x =>
    cases converted : f x with
    | none =>
      simp only [Option.bind_some, converted]
      exact .refused converted.symm
    | some y =>
      simp only [Option.bind_some, converted]
      exact .both converted.symm

theorem Follow.members (follow : Follow f ws vs) {depth : Nat} {first : Bool}
    {g : Option (Value → Option α)} {h : Option (Value → Option β)} (tagged : Tagged f g h)
    (acc : List (String × Value)) (bound s : List Symbol) :
    Json.Follows (Converts f) (ws.readMembers depth first g acc bound s)
      (vs.readMembers depth first h acc bound s) := by
  induction bound generalizing first g h acc s with
  | nil => exact .neither
  | cons _ bound ih =>
    simp only [readMembers]
    have same : g.isSome = h.isSome := by cases tagged <;> rfl
    cases nextName first s with
    | error fault => exact .neither
    | ok next =>
      obtain ⟨_ | name, t⟩ := next
      · cases tagged with
        | untagged => exact .neither
        | tagged decodes => exact decodes.follows (.object acc.reverse) t
      · simp only [same]
        split
        · exact .neither
        · cases colon t with
          | error fault => exact .neither
          | ok u =>
            simp only
            split
            · rcases follow.readTag u with ⟨_, _, none, none'⟩ | ⟨g', h', v, decodes, found, found'⟩
              · rw [none, none']
                exact .neither
              · rw [found, found']
                exact ih (.tagged decodes) acc v
            · cases value depth u with
              | error fault => exact .neither
              | ok r => exact ih tagged _ r.2

theorem Follow.elements (follow : Follow f ws vs) (depth : Nat) (s : List Symbol) :
    Json.Follows (Converts f) (ws.readElements depth s) (vs.readElements depth s) := by
  simp only [readElements]
  cases nextElement true s with
  | error fault => exact .neither
  | ok next =>
    obtain ⟨_ | _, t⟩ := next
    · exact .neither
    · simp only
      rcases follow.readTag t with ⟨_, _, none, none'⟩ | ⟨g, h, u, decodes, found, found'⟩
      · rw [none, none']
        exact .neither
      · rw [found, found']
        simp only
        cases Json.elements (value depth) false [] (Option.none :: u) u with
        | error fault => exact .neither
        | ok r => exact decodes.follows (.list r.1) r.2

/-- The tagged values follow if their variants do. -/
theorem Follow.read (follow : Follow f ws vs) (depth : Nat) (s : List Symbol) :
    Json.Follows (Converts f) (ws.decoder.read depth s) (vs.decoder.read depth s) := by
  simp only [Variants.decoder]
  split
  · exact .neither
  · cases depth with
    | zero => exact .neither
    | succ depth => exact follow.members .untagged [] _ _
  · cases depth with
    | zero => exact .neither
    | succ depth => exact follow.elements depth _
  · exact follows_refuse _

end

end Variants

end ChannelAgent.Json
