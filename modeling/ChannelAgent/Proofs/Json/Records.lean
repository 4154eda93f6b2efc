import Mathlib.Data.List.Pairwise
import ChannelAgent.Json.Record

set_option autoImplicit false

namespace ChannelAgent.Json

/-- What the members of an object say about one name: its value there, or the default where it is
absent. -/
structure Given {β : Type} (ms : List (String × Value)) (name : String) (decode : Value → Option β)
    (default x : β) : Prop where
  present : ∀ v, (name, v) ∈ ms → decode v = some x
  absent : (∀ v, (name, v) ∉ ms) → x = default

namespace Record

variable {σ α : Type} {r : Record σ α} {seen : List String} {state : σ} {name : String} {v : Value}
  {f : Field σ} {ms : List (String × Value)}

def names (r : Record σ α) : List String := r.fields.map Field.name

theorem field?_name {f : Field σ} (known : r.field? name = some f) : f.name = name :=
  of_decide_eq_true (List.find?_some (p := fun f : Field σ => decide (f.name = name)) known)

theorem mem_names_of_field (known : r.field? name = some f) : name ∈ r.names :=
  List.mem_map.2 ⟨f, List.mem_of_find?_eq_some known, field?_name known⟩

theorem field?_eq_none : r.field? name = none ↔ name ∉ r.names := by
  simp [Record.field?, names]

theorem exists_field (known : name ∈ r.names) : ∃ f, r.field? name = some f :=
  Option.ne_none_iff_exists'.1 fun none => field?_eq_none.1 none known

/-- The members that a record takes behind names that it has seen. -/
structure Fits (r : Record σ α) (seen : List String) (ms : List (String × Value)) : Prop where
  /-- Other names are there only if the record ignores them. -/
  known : r.closed = true → ∀ m ∈ ms, m.1 ∈ r.names
  fresh : ∀ m ∈ ms, m.1 ∈ r.names → m.1 ∉ seen
  unrepeated : ((ms.map Prod.fst).filter (· ∈ r.names)).Nodup
  decoded : ∀ m ∈ ms, ∀ f, r.field? m.1 = some f → (f.decoder.ofValue? m.2).isSome

theorem fits_nil : r.Fits seen [] := ⟨nofun, nofun, List.nodup_nil, nofun⟩

theorem fits_cons_of_unknown (unknown : r.field? name = none) :
    r.Fits seen ((name, v) :: ms) ↔ r.closed = false ∧ r.Fits seen ms := by
  have other : name ∉ r.names := field?_eq_none.1 unknown
  have names : (((name, v) :: ms).map Prod.fst).filter (· ∈ r.names) =
      (ms.map Prod.fst).filter (· ∈ r.names) :=
    List.filter_cons_of_neg (by simpa using other)
  constructor
  · rintro ⟨known, fresh, unrepeated, decoded⟩
    rw [names] at unrepeated
    refine ⟨Bool.eq_false_iff.2 fun closed => ?_, fun closed m found => ?_, fun m found => ?_,
      unrepeated, fun m found => ?_⟩
    · exact other (known closed _ (List.mem_cons_self ..))
    · exact known closed m (List.mem_cons_of_mem _ found)
    · exact fresh m (List.mem_cons_of_mem _ found)
    · exact decoded m (List.mem_cons_of_mem _ found)
  · rintro ⟨ignored, known, fresh, unrepeated, decoded⟩
    refine ⟨fun closed => ?_, List.forall_mem_cons.2 ⟨fun named => absurd named other, fresh⟩,
      names ▸ unrepeated, List.forall_mem_cons.2 ⟨fun f found => ?_, decoded⟩⟩
    · cases ignored.symm.trans closed
    · cases unknown.symm.trans found

theorem fits_cons_of_known (known : r.field? name = some f) :
    r.Fits seen ((name, v) :: ms) ↔
      name ∉ seen ∧ (f.decoder.ofValue? v).isSome ∧ r.Fits (name :: seen) ms := by
  have named : name ∈ r.names := mem_names_of_field known
  -- a name is not repeated just if the members behind it do not have it
  have apart : ((((name, v) :: ms).map Prod.fst).filter (· ∈ r.names)).Nodup ↔
      (∀ m ∈ ms, m.1 ∈ r.names → m.1 ≠ name) ∧
        ((ms.map Prod.fst).filter (· ∈ r.names)).Nodup := by
    have names : (((name, v) :: ms).map Prod.fst).filter (· ∈ r.names) =
        name :: (ms.map Prod.fst).filter (· ∈ r.names) :=
      List.filter_cons_of_pos (by simpa using named)
    rw [names, List.nodup_cons, List.mem_filter, List.mem_map]
    refine and_congr_left fun _ => ⟨fun other m found _ same => ?_, fun other again => ?_⟩
    · exact other ⟨⟨m, found, same⟩, by simpa using named⟩
    · obtain ⟨⟨m, found, same⟩, -⟩ := again
      exact other m found (same ▸ named) same
  constructor
  · rintro ⟨knows, fresh, unrepeated, decoded⟩
    obtain ⟨here, later⟩ := List.forall_mem_cons.1 decoded
    obtain ⟨others, unrepeated⟩ := apart.1 unrepeated
    refine ⟨fresh _ (List.mem_cons_self ..) named, here f known, fun closed m found => ?_,
      fun m found known again => ?_, unrepeated, later⟩
    · exact knows closed m (List.mem_cons_of_mem _ found)
    · rcases List.mem_cons.1 again with same | old
      · exact others m found known same
      · exact fresh m (List.mem_cons_of_mem _ found) known old
  · rintro ⟨new, here, knows, fresh, unrepeated, decoded⟩
    refine ⟨fun closed => List.forall_mem_cons.2 ⟨named, knows closed⟩,
      List.forall_mem_cons.2 ⟨fun _ => new, fun m found known old => ?_⟩,
      apart.2 ⟨fun m found known same => ?_, unrepeated⟩,
      List.forall_mem_cons.2 ⟨fun g found => ?_, decoded⟩⟩
    · exact fresh m found known (List.mem_cons_of_mem _ old)
    · exact fresh m found known (same ▸ List.mem_cons_self ..)
    · rwa [Option.some.inj (found.symm.trans known)]

/-- A record that lacks nothing takes an object just if its members fit. -/
theorem ofMembers_isSome (total : ∀ s, (r.finish s).isSome) :
    (r.ofMembers? seen state ms).isSome ↔ r.Fits seen ms := by
  induction ms generalizing seen state with
  | nil => exact ⟨fun _ => fits_nil, fun _ => total state⟩
  | cons m ms ih =>
    obtain ⟨name, v⟩ := m
    cases known : r.field? name with
    | none =>
      rw [fits_cons_of_unknown known]
      simp only [ofMembers?, known]
      cases r.closed with
      | true => simp
      | false => simp [ih]
    | some f =>
      rw [fits_cons_of_known known]
      simp only [ofMembers?, known]
      by_cases old : name ∈ seen
      · simp [old]
      · cases decoded : f.decoder.ofValue? v with
        | none => simp [old]
        | some store => simp [old, ih]

/-- A name that has been seen does not come again. -/
theorem not_mem_of_seen {x : α} (known : name ∈ r.names) (old : name ∈ seen)
    (read : r.ofMembers? seen state ms = some x) : (name, v) ∉ ms := by
  induction ms generalizing seen state with
  | nil => exact List.not_mem_nil
  | cons m ms ih =>
    obtain ⟨other, w⟩ := m
    simp only [ofMembers?] at read
    cases field : r.field? other with
    | none =>
      simp only [field] at read
      split at read
      · cases read
      · rintro (_ | ⟨_, again⟩)
        · exact field?_eq_none.1 field known
        · exact ih old read again
    | some f =>
      simp only [field] at read
      split at read
      · cases read
      · rename_i new
        split at read
        · cases read
        · rintro (_ | ⟨_, again⟩)
          · exact new old
          · exact ih (List.mem_cons_of_mem _ old) read again

theorem given_cons_of_ne {β : Type} {decode : Value → Option β} {default x : β} {other : String}
    (apart : other ≠ name) (given : Given ms name decode default x) :
    Given ((other, v) :: ms) name decode default x := by
  constructor
  · rintro w (_ | ⟨_, found⟩)
    · exact absurd rfl apart
    · exact given.present w found
  · exact fun none => given.absent fun w found => none w (List.mem_cons_of_mem _ found)

/-- What every value stored from the members keeps holds of the last state if it holds of the
first. -/
theorem ofMembers_keeps (Kept : σ → Prop) {x : α} (start : Kept state)
    (step : ∀ name v f store, (name, v) ∈ ms → r.field? name = some f →
      f.decoder.ofValue? v = some store → ∀ s, Kept s → Kept (store s))
    (read : r.ofMembers? seen state ms = some x) : ∃ last, r.finish last = some x ∧ Kept last := by
  induction ms generalizing seen state with
  | nil => exact ⟨state, read, start⟩
  | cons m ms ih =>
    obtain ⟨name, v⟩ := m
    have later : ∀ name v f store, (name, v) ∈ ms → r.field? name = some f →
        f.decoder.ofValue? v = some store → ∀ s, Kept s → Kept (store s) :=
      fun name v f store found => step name v f store (List.mem_cons_of_mem _ found)
    simp only [ofMembers?] at read
    split at read
    · split at read
      · cases read
      · exact ih start later read
    · rename_i f known
      split at read
      · cases read
      · split at read
        · cases read
        · rename_i store stored
          exact ih (step name v f store List.mem_cons_self known stored state start) later read

theorem ofElements_cons {fields : List (Field σ)} {items : List Value} {x : α}
    (read : r.ofElements? state (f :: fields) (v :: items) = some x) :
    ∃ store, f.decoder.ofValue? v = some store ∧
      r.ofElements? (store state) fields items = some x := by
  simp only [ofElements?] at read
  split at read
  · cases read
  · rename_i store stored
    exact ⟨store, stored, read⟩

/-- A part of the state that a field does not touch. -/
def Keeps {β : Type} (part : σ → β) (f : Field σ) : Prop :=
  ∀ v store, f.decoder.ofValue? v = some store → ∀ s, part (store s) = part s

theorem ofValue_stored {β : Type} {d : Decoder β} {store : β → σ → σ} {a : σ → σ}
    (decoded : (d.map store).ofValue? v = some a) :
    ∃ x, d.ofValue? v = some x ∧ a = store x := by
  obtain ⟨x, known, same⟩ := Option.bind_eq_some_iff.1 decoded
  exact ⟨x, known, (Option.some.inj same).symm⟩

theorem keeps_storing {β γ : Type} {part : σ → β} {name : String} {d : Decoder γ}
    {store : γ → σ → σ} {mayLack : Bool} (same : ∀ x s, part (store x s) = part s) :
    Keeps part { Field.storing name d store with mayLack } := by
  intro v a decoded s
  obtain ⟨x, -, rfl⟩ := ofValue_stored decoded
  exact same x s

/-- What the members say about a name, a part of the state has to say in the end, if the field of
that name stores its value there and no other field touches it. -/
theorem given_of_ofMembers {β : Type} {part : σ → β} {d : Decoder β} {store : β → σ → σ}
    {mayLack : Bool} (known : r.field? name = some { Field.storing name d store with mayLack })
    (own : ∀ x s, part (store x s) = x)
    (others : ∀ f ∈ r.fields, f.name ≠ name → Keeps part f)
    {x : α} (read : r.ofMembers? seen state ms = some x) :
    ∃ last, r.finish last = some x ∧ Given ms name d.ofValue? (part state) (part last) := by
  induction ms generalizing seen state with
  | nil => exact ⟨state, read, nofun, fun _ => rfl⟩
  | cons m ms ih =>
    obtain ⟨other, w⟩ := m
    simp only [ofMembers?] at read
    cases field : r.field? other with
    | none =>
      have apart : other ≠ name := by
        rintro rfl
        cases field.symm.trans known
      simp only [field] at read
      split at read
      · cases read
      · obtain ⟨last, done, given⟩ := ih read
        exact ⟨last, done, given_cons_of_ne apart given⟩
    | some f =>
      simp only [field] at read
      split at read
      · cases read
      · cases decoded : f.decoder.ofValue? w with
        | none =>
          rw [decoded] at read
          cases read
        | some keep =>
          rw [decoded] at read
          obtain ⟨last, done, given⟩ := ih read
          refine ⟨last, done, ?_⟩
          by_cases same : other = name
          · subst same
            have gone (v : Value) : (other, v) ∉ ms :=
              not_mem_of_seen (mem_names_of_field field) (List.mem_cons_self ..) read
            obtain rfl := Option.some.inj (field.symm.trans known)
            obtain ⟨x, valued, rfl⟩ := ofValue_stored decoded
            constructor
            · rintro v (_ | ⟨_, again⟩)
              · rw [given.absent gone, own]
                exact valued
              · exact absurd again (gone v)
            · exact fun none => absurd (List.mem_cons_self ..) (none w)
          · have apart : f.name ≠ name := fun this => same ((field?_name field).symm.trans this)
            rw [others f (List.mem_of_find?_eq_some field) apart w keep decoded state] at given
            exact given_cons_of_ne same given

/-- What two fields store does not depend on which one comes first. -/
def Independent (f g : Field σ) : Prop :=
  ∀ v w a b, f.decoder.ofValue? v = some a → g.decoder.ofValue? w = some b → ∀ s, a (b s) = b (a s)

instance : Std.Symm (@Independent σ) :=
  ⟨fun _ _ apart v w a b left right s => (apart w v b a right left s).symm⟩

theorem independent_storing {β γ : Type} {name other : String} {d : Decoder β} {e : Decoder γ}
    {store : β → σ → σ} {keep : γ → σ → σ} {mayLack mayLack' : Bool}
    (apart : ∀ x y s, store x (keep y s) = keep y (store x s)) :
    Independent { Field.storing name d store with mayLack }
      { Field.storing other e keep with mayLack := mayLack' } := by
  intro v w a b left right s
  obtain ⟨x, -, rfl⟩ := ofValue_stored left
  obtain ⟨y, -, rfl⟩ := ofValue_stored right
  exact apart x y s

/-- Names that were seen matter, and not their order. -/
theorem ofMembers_congr {seen' : List String} (same : ∀ n, n ∈ seen ↔ n ∈ seen') :
    r.ofMembers? seen state ms = r.ofMembers? seen' state ms := by
  induction ms generalizing seen seen' state with
  | nil => rfl
  | cons m ms ih =>
    obtain ⟨name, v⟩ := m
    simp only [ofMembers?, same]
    have later (store : σ → σ) : r.ofMembers? (name :: seen) (store state) ms =
        r.ofMembers? (name :: seen') (store state) ms :=
      ih fun n => by simp only [List.mem_cons, same]
    simp only [later, ih same]

/-- Two members may change places. -/
theorem ofMembers_swap (independent : r.fields.Pairwise Independent) (m n : String × Value) :
    r.ofMembers? seen state (m :: n :: ms) = r.ofMembers? seen state (n :: m :: ms) := by
  obtain ⟨name, v⟩ := m
  obtain ⟨other, w⟩ := n
  simp only [ofMembers?]
  cases left : r.field? name with
  | none =>
    cases right : r.field? other with
    | none => rfl
    | some g =>
      cases r.closed with
      | false => rfl
      | true => cases kept : g.decoder.ofValue? w <;> simp [kept]
  | some f =>
    cases right : r.field? other with
    | none =>
      cases r.closed with
      | false => rfl
      | true => cases stored : f.decoder.ofValue? v <;> simp [stored]
    | some g =>
      cases stored : f.decoder.ofValue? v with
      | none => cases kept : g.decoder.ofValue? w <;> simp [stored, kept]
      | some a =>
        cases kept : g.decoder.ofValue? w with
        | none => simp [stored, kept]
        | some b =>
          by_cases same : name = other
          · simp [same, stored, kept]
          · have apart : f ≠ g := by
              rintro rfl
              exact same ((field?_name left).symm.trans (field?_name right))
            have commute : a (b state) = b (a state) :=
              independent.forall (List.mem_of_find?_eq_some left)
                (List.mem_of_find?_eq_some right) apart v w a b stored kept state
            have order : r.ofMembers? (name :: other :: seen) (b (a state)) ms =
                r.ofMembers? (other :: name :: seen) (b (a state)) ms :=
              ofMembers_congr fun n => by simp only [List.mem_cons, or_left_comm]
            by_cases old : name ∈ seen
            · simp [old, kept]
            · by_cases old' : other ∈ seen
              · simp [old', stored]
              · simp [old, old', same, stored, kept, Ne.symm same, commute, order]

/-- A record of independent fields makes the same of its members in every order. -/
theorem ofMembers_perm (independent : r.fields.Pairwise Independent)
    {ms' : List (String × Value)} (perm : ms.Perm ms') :
    r.ofMembers? seen state ms = r.ofMembers? seen state ms' := by
  induction perm generalizing seen state with
  | nil => rfl
  | cons m _ ih =>
    obtain ⟨name, v⟩ := m
    simp only [ofMembers?, ih]
  | swap m n ms => exact ofMembers_swap independent n m
  | trans _ _ left right => exact left.trans right

theorem ofMembers_unknown (ignored : r.closed = false) {further : List (String × Value)}
    (unknown : ∀ m ∈ further, m.1 ∉ r.names) :
    r.ofMembers? seen state (further ++ ms) = r.ofMembers? seen state ms := by
  induction further with
  | nil => rfl
  | cons m further ih =>
    obtain ⟨name, v⟩ := m
    obtain ⟨here, later⟩ := List.forall_mem_cons.1 unknown
    have none : r.field? name = none := field?_eq_none.2 here
    simp only [List.cons_append, ofMembers?, none, ignored, Bool.false_eq_true, ↓reduceIte, ih later]

/-- An open record makes of an object what its own members make, wherever the others stand. -/
theorem ofValue_of_perm (independent : r.fields.Pairwise Independent) (ignored : r.closed = false)
    {own further : List (String × Value)} (order : ms.Perm (own ++ further))
    (unknown : ∀ m ∈ further, m.1 ∉ r.names) :
    r.decoder.ofValue? (.object ms) = r.ofMembers? [] r.initial own :=
  (ofMembers_perm independent (order.trans List.perm_append_comm)).trans
    (ofMembers_unknown ignored unknown)

end Record

/-- The same value, or an object with its members in another order. -/
def Value.Reordered (v w : Value) : Prop :=
  v = w ∨ ∃ ms ms' : List (String × Value), v = .object ms ∧ w = .object ms' ∧ ms.Perm ms'

/-- The same members in another order, and in another order within each of them. -/
def Shuffled (ms ms' : List (String × Value)) : Prop :=
  ∃ between : List (String × Value),
    List.Forall₂ (fun m n => m.1 = n.1 ∧ m.2.Reordered n.2) ms between ∧ between.Perm ms'

/-- A decoder for which the order of members does not count. -/
def Decoder.Unordered {α : Type} (d : Decoder α) : Prop :=
  ∀ v w, Value.Reordered v w → d.ofValue? v = d.ofValue? w

section

variable {σ α β : Type} {d : Decoder α} {r : Record σ α}

/-- A decoder that has no use for objects. -/
theorem Decoder.unordered_of_objects (refused : ∀ ms, d.ofValue? (.object ms) = none) : d.Unordered := by
  rintro v w (rfl | ⟨ms, ms', rfl, rfl, -⟩)
  · rfl
  · rw [refused, refused]

theorem Decoder.Unordered.optional (unordered : d.Unordered) : d.optional.Unordered := by
  intro v w same
  rcases same with rfl | ⟨ms, ms', rfl, rfl, perm⟩
  · rfl
  · exact congrArg (Option.map some) (unordered _ _ (.inr ⟨ms, ms', rfl, rfl, perm⟩))

theorem Decoder.Unordered.storing {name : String} {store : α → σ → σ} (unordered : d.Unordered) :
    (Field.storing name d store).orLacking.decoder.Unordered :=
  fun v w same => congrArg (fun x => x.bind fun x => some (store x)) (unordered v w same)

theorem Record.unordered_decoder (independent : r.fields.Pairwise Independent) :
    r.decoder.Unordered := by
  rintro v w (rfl | ⟨ms, ms', rfl, rfl, perm⟩)
  · rfl
  · exact ofMembers_perm independent perm

/-- Records of independent fields for which the order of members does not count make the same of all
objects that differ in it. -/
theorem Record.ofMembers_shuffled (independent : r.fields.Pairwise Independent)
    (unordered : ∀ f ∈ r.fields, f.decoder.Unordered) {ms ms' : List (String × Value)}
    (shuffled : Shuffled ms ms') (seen : List String) (state : σ) :
    r.ofMembers? seen state ms = r.ofMembers? seen state ms' := by
  obtain ⟨between, within, perm⟩ := shuffled
  refine Eq.trans ?_ (ofMembers_perm independent perm)
  clear perm
  induction within generalizing seen state with
  | nil => rfl
  | @cons m n ms between same _ ih =>
    obtain ⟨name, v⟩ := m
    obtain ⟨name', w⟩ := n
    obtain ⟨named, reordered⟩ := same
    obtain rfl : name = name' := named
    simp only [ofMembers?, ih]
    cases known : r.field? name with
    | none => rfl
    | some f => simp only [unordered f (List.mem_of_find?_eq_some known) v w reordered]

end

end ChannelAgent.Json
