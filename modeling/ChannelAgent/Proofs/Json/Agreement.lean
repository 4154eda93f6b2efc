import ChannelAgent.Proofs.Json.Skipping

set_option autoImplicit false

namespace ChannelAgent.Json

namespace Decoder

/-- Reading straight from the text comes to what decoding the buffered value comes to. -/
def Coherent {α : Type} (d : Decoder α) : Prop :=
  ∀ depth s v rest, value depth s = .ok (v, rest) →
    (d.read depth s).toOption = (d.ofValue? v).map fun x => (x, rest)

section

variable {α β : Type} {d : Decoder α} {depth : Nat} {s rest : List Symbol} {v : Value}

theorem Coherent.cases (coherent : d.Coherent) (read : value depth s = .ok (v, rest)) :
    (∃ x, d.ofValue? v = some x ∧ d.read depth s = .ok (x, rest)) ∨
      (d.ofValue? v = none ∧ ∃ fault, d.read depth s = .error fault) := by
  have agree := coherent depth s v rest read
  cases decoded : d.ofValue? v with
  | none =>
    rw [decoded] at agree
    cases straight : d.read depth s with
    | error fault => exact .inr ⟨rfl, fault, rfl⟩
    | ok r =>
      rw [straight] at agree
      cases agree
  | some x =>
    rw [decoded] at agree
    cases straight : d.read depth s with
    | error fault =>
      rw [straight] at agree
      cases agree
    | ok r =>
      rw [straight] at agree
      exact .inl ⟨x, rfl, congrArg Except.ok (Option.some.inj agree)⟩

theorem coherent_any : any.Coherent := by
  intro depth s v rest read
  change (value depth s).toOption = _
  rw [read]
  rfl

theorem Coherent.refine (coherent : d.Coherent) (f : α → Option β) : (d.refine f).Coherent := by
  intro depth s v rest read
  rcases coherent.cases read with ⟨x, decoded, straight⟩ | ⟨decoded, fault, straight⟩
  · simp only [Decoder.refine, decoded, straight, Option.bind_some]
    cases f x <;> rfl
  · simp only [Decoder.refine, decoded, straight, Option.bind_none]
    rfl

theorem Coherent.storing {σ : Type} {name : String} {store : α → σ → σ} (coherent : d.Coherent) :
    (Field.storing name d store).decoder.Coherent :=
  coherent.refine fun x => some (store x)

theorem Coherent.orLacking {σ : Type} {f : Field σ} (coherent : f.decoder.Coherent) :
    f.orLacking.decoder.Coherent :=
  coherent

theorem toOption_refuse : (refuse s : Except Fault (α × List Symbol)).toOption = none := by
  unfold refuse
  cases token (fun _ => .error .mismatched) (fun _ => .error .mismatched) s <;> rfl

theorem coherent_string : string.Coherent := by
  intro depth s v rest read
  have other {t : List Symbol} {c : Char} (visible : skipSpace s = some c :: t) (noQuote : c ≠ '"') :
      (string.read depth s).toOption = none := by
    simp only [string, visible]
    split
    · rename_i same
      exact absurd (Option.some.inj (List.cons.inj same).1) noQuote
    · rfl
    · exact toOption_refuse
  cases value_read read with
  | scalar visible noList noObject scalar =>
    rcases scalar_cases scalar with ⟨rfl, rfl, -⟩ | ⟨rfl, text, rfl, string⟩ | ⟨-, noQuote, kind⟩
    · rw [other visible (by decide)]
      rfl
    · simp only [Decoder.string, visible, string]
      rfl
    · rw [other visible noQuote]
      rcases kind with ⟨b, rfl⟩ | ⟨n, rfl⟩ <;> rfl
  | list visible _ =>
    rw [other visible (by decide)]
    rfl
  | object visible _ =>
    rw [other visible (by decide)]
    rfl

/-- A scalar is read by a reader that has no use for lists and objects, and those are refused. -/
theorem token_mismatched (read : value depth s = .ok (v, rest)) :
    token (fun _ => .error .mismatched) (fun _ => .error .mismatched) s =
      match v with
      | .list _ | .object _ => .error .mismatched
      | v => .ok (v, rest) := by
  cases value_read read with
  | scalar visible noList noObject scalar =>
    rw [token_of_scalar visible noList noObject, scalar]
    rcases scalar_cases scalar with
      ⟨-, rfl, -⟩ | ⟨-, text, rfl, -⟩ | ⟨-, -, ⟨b, rfl⟩ | ⟨n, rfl⟩⟩ <;> rfl
  | list visible _ => exact token_of_list visible
  | object visible _ => exact token_of_object visible

theorem coherent_word : word.Coherent := by
  intro depth s v rest read
  simp only [word, token_mismatched read]
  cases v with
  | number n => cases n <;> rfl
  | _ => rfl

theorem Coherent.optional (coherent : d.Coherent) : d.optional.Coherent := by
  intro depth s v rest read
  have behind := coherent.cases (value_skipSpace.trans read)
  have present {c : Char} {t : List Symbol} (visible : skipSpace s = some c :: t) (noWord : c ≠ 'n')
      (noNull : v ≠ .null) :
      (d.optional.read depth s).toOption = (d.optional.ofValue? v).map fun x => (x, rest) := by
    have straight : d.optional.read depth s =
        (d.read depth (skipSpace s)).map fun r => (some r.1, r.2) := by
      simp only [Decoder.optional, visible]
      split
      · rename_i same
        exact absurd (Option.some.inj (List.cons.inj same).1) noWord
      · rfl
    have buffered : d.optional.ofValue? v = (d.ofValue? v).map some := by
      cases v with
      | null => exact absurd rfl noNull
      | _ => rfl
    rw [straight, buffered]
    rcases behind with ⟨x, decoded, taken⟩ | ⟨decoded, fault, refused⟩
    · rw [decoded, taken]
      rfl
    · rw [decoded, refused]
      rfl
  cases value_read read with
  | scalar visible noList noObject scalar =>
    rcases scalar_cases scalar with ⟨rfl, rfl, word⟩ | ⟨rfl, text, rfl, -⟩ | ⟨noWord, -, kind⟩
    · simp only [Decoder.optional, visible, word]
      rfl
    · exact present visible (by decide) nofun
    · exact present visible noWord (by rcases kind with ⟨b, rfl⟩ | ⟨n, rfl⟩ <;> nofun)
  | list visible _ => exact present visible (by decide) nofun
  | object visible _ => exact present visible (by decide) nofun

/-- A decoder that has no use for scalars agrees if it does so on lists and objects. -/
theorem coherent_of_containers
    (scalar : ∀ {depth s c t}, skipSpace s = some c :: t → c ≠ '[' → c ≠ '\x7b' →
      (d.read depth s).toOption = none)
    (nothing : ∀ v, (∀ items, v ≠ .list items) → (∀ ms, v ≠ .object ms) → d.ofValue? v = none)
    (list : ∀ {depth s t rest items}, skipSpace s = some '[' :: t →
      ElementsRead (value depth) true t items rest →
      (d.read (depth + 1) s).toOption = (d.ofValue? (.list items)).map fun x => (x, rest))
    (object : ∀ {depth s t rest ms}, skipSpace s = some '\x7b' :: t →
      MembersRead (value depth) true t ms rest →
      (d.read (depth + 1) s).toOption = (d.ofValue? (.object ms)).map fun x => (x, rest)) :
    d.Coherent := by
  intro depth s v rest read
  cases value_read read with
  | scalar visible noList noObject read =>
    rw [scalar visible noList noObject, nothing]
    · rfl
    · rcases scalar_cases read with
        ⟨-, rfl, -⟩ | ⟨-, text, rfl, -⟩ | ⟨-, -, ⟨b, rfl⟩ | ⟨n, rfl⟩⟩ <;> nofun
    · rcases scalar_cases read with
        ⟨-, rfl, -⟩ | ⟨-, text, rfl, -⟩ | ⟨-, -, ⟨b, rfl⟩ | ⟨n, rfl⟩⟩ <;> nofun
  | list visible read => exact list visible read
  | object visible read => exact object visible read

/-- The members of a dictionary are read as far as they are buffered. -/
theorem Coherent.members (coherent : d.Coherent) {first : Bool} {ms : List (String × Value)}
    (read : MembersRead (value depth) first s ms rest) (acc : List (String × α))
    {bound : List Symbol} (enough : s.length < bound.length) :
    (Json.members (d.read depth) first acc bound s).toOption =
      (ms.mapM fun m => (d.ofValue? m.2).map fun x => (m.1, x)).map fun xs =>
        (acc.reverse ++ xs, rest) := by
  induction read generalizing acc bound with
  | closed close =>
    cases bound with
    | nil => cases enough
    | cons b bound =>
      rw [Json.members, nextName_none.2 close]
      simp [Except.toOption]
  | @member first s t u w rest name v ms named joined here later ih =>
    cases bound with
    | nil => cases enough
    | cons b bound =>
      have shorter := shorter_member named joined here
      rw [List.length_cons] at enough
      simp only [Json.members, named, joined, List.mapM_cons]
      rcases coherent.cases here with ⟨x, decoded, straight⟩ | ⟨decoded, fault, straight⟩
      · simp only [decoded, straight]
        rw [ih ((name, x) :: acc) (by omega)]
        cases ms.mapM fun m => (d.ofValue? m.2).map fun x => (m.1, x) with
        | none => rfl
        | some xs => simp
      · simp only [decoded, straight]
        rfl

theorem Coherent.dictionary (coherent : d.Coherent) : d.dictionary.Coherent := by
  have other {depth : Nat} {s t : List Symbol} {c : Char} (visible : skipSpace s = some c :: t)
      (noObject : c ≠ '\x7b') : (d.dictionary.read depth s).toOption = none := by
    simp only [Decoder.dictionary, visible]
    split
    · rfl
    · rename_i same
      exact absurd (Option.some.inj (List.cons.inj same).1) noObject
    · exact toOption_refuse
  apply coherent_of_containers
  · intro depth s c t visible _ noObject
    exact other visible noObject
  · intro v _ noObject
    cases v with
    | object ms => exact absurd rfl (noObject ms)
    | _ => rfl
  · intro depth s t rest items visible _
    rw [other visible (by decide)]
    rfl
  · intro depth s t rest ms visible read
    simp only [Decoder.dictionary, visible, nested, objectOf]
    exact coherent.members read [] (Nat.lt_succ_self _)

end

end Decoder

namespace Record

variable {σ α : Type} {r : Record σ α} {depth : Nat} {first : Bool} {s rest : List Symbol}

/-- Every field of the record is read straight as it is read when buffered. -/
def Coherent (r : Record σ α) : Prop := ∀ f ∈ r.fields, f.decoder.Coherent

theorem Coherent.members (coherent : r.Coherent) {ms : List (String × Value)}
    (read : MembersRead (value depth) first s ms rest) (seen : List String) (state : σ)
    {bound : List Symbol} (enough : s.length < bound.length) :
    (r.readMembers depth first seen state bound s).toOption =
      (r.ofMembers? seen state ms).map fun x => (x, rest) := by
  induction read generalizing seen state bound with
  | closed close =>
    cases bound with
    | nil => cases enough
    | cons b bound =>
      simp only [readMembers, nextName_none.2 close, ofMembers?]
      cases r.finish state <;> rfl
  | @member first s t u w rest name v ms named joined here later ih =>
    cases bound with
    | nil => cases enough
    | cons b bound =>
      have shorter := shorter_member named joined here
      rw [List.length_cons] at enough
      simp only [readMembers, named, ofMembers?]
      cases known : r.field? name with
      | none =>
        by_cases closed : r.closed = true
        · simp only [closed, ↓reduceIte]
          rfl
        · simp only [closed, joined, skipValue_of_value here, Bool.false_eq_true, ↓reduceIte]
          exact ih seen state (by omega)
      | some f =>
        by_cases repeated : name ∈ seen
        · simp only [if_pos repeated]
          rfl
        · simp only [if_neg repeated, joined]
          have field := coherent f (List.mem_of_find?_eq_some known)
          rcases field.cases here with ⟨store, decoded, straight⟩ | ⟨decoded, fault, straight⟩
          · simp only [decoded, straight]
            exact ih (name :: seen) (store state) (by omega)
          · simp only [decoded, straight]
            rfl

theorem Coherent.elements (fields : List (Field σ))
    (coherent : ∀ f ∈ fields, f.decoder.Coherent) {items : List Value}
    (read : ElementsRead (value depth) first s items rest) (state : σ) :
    (r.readElements depth first state fields s).toOption =
      (r.ofElements? state fields items).map fun x => (x, rest) := by
  induction fields generalizing first s items state with
  | nil =>
    simp only [readElements]
    cases read with
    | closed close =>
      simp only [ofElements?, closeList_ok.2 close]
      cases r.finish state <;> rfl
    | element next here later =>
      have goesOn : ∃ fault, closeList s = .error fault := by
        cases closing : closeList s with
        | error fault => exact ⟨fault, rfl⟩
        | ok t =>
          cases (nextElement_false.2 ⟨t, closeList_ok.1 closing, rfl⟩).symm.trans next
      obtain ⟨fault, goesOn⟩ := goesOn
      rw [goesOn]
      cases r.finish state <;> rfl
  | cons f fields ih =>
    obtain ⟨here, later⟩ := List.forall_mem_cons.1 coherent
    simp only [readElements]
    cases read with
    | closed close =>
      simp only [nextElement_false.2 ⟨_, close, rfl⟩, ofElements?]
      by_cases lack : f.mayLack = true
      · simp only [lack, ↓reduceIte]
        exact ih later (.closed (skipSpace_cons_of_visible (by decide))) state
      · simp only [lack, Bool.false_eq_true, ↓reduceIte]
        rfl
    | element next item others =>
      simp only [next, ofElements?]
      rcases here.cases item with ⟨store, decoded, straight⟩ | ⟨decoded, fault, straight⟩
      · simp only [decoded, straight]
        exact ih later others (store state)
      · simp only [decoded, straight]
        rfl

/-- A record whose fields agree agrees itself. Members that it skips are members that can be
buffered. -/
theorem Coherent.decoder (coherent : r.Coherent) : r.decoder.Coherent := by
  apply Decoder.coherent_of_containers
  · intro depth s c t visible noList noObject
    simp only [Record.decoder, visible]
    split
    · rfl
    · rename_i same
      exact absurd (Option.some.inj (List.cons.inj same).1) noObject
    · rename_i same
      exact absurd (Option.some.inj (List.cons.inj same).1) noList
    · exact Decoder.toOption_refuse
  · intro v noList noObject
    cases v with
    | list items => exact absurd rfl (noList items)
    | object ms => exact absurd rfl (noObject ms)
    | _ => rfl
  · intro depth s t rest items visible read
    simp only [Record.decoder, visible, Decoder.nested]
    exact Coherent.elements r.fields coherent read r.initial
  · intro depth s t rest ms visible read
    simp only [Record.decoder, visible, Decoder.nested]
    exact coherent.members read [] r.initial (Nat.lt_succ_self _)

end Record

namespace Variants

variable {α : Type} {vs : Variants α} {depth : Nat} {first : Bool} {s rest : List Symbol}

/-- The tag of a value, checked against the variants. -/
def tagDecoder (vs : Variants α) : Decoder (Value → Option α) := Decoder.string.refine vs.variant?

theorem coherent_tagDecoder : vs.tagDecoder.Coherent := Decoder.coherent_string.refine _

/-- An object is decoded by its first tag, if no other one follows. -/
theorem ofValue_object {before after : List (String × Value)} (v : Value)
    (untagged : ∀ m ∈ before, m.1 ≠ tagName) :
    vs.ofValue? (.object (before ++ (tagName, v) :: after)) =
      if ∀ m ∈ after, m.1 ≠ tagName then
        (vs.tagDecoder.ofValue? v).bind fun decode => decode (.object (before ++ after))
      else none := by
  have others : before.filter (fun m => m.1 ≠ tagName) = before :=
    List.filter_eq_self.2 fun m found => decide_eq_true (untagged m found)
  have noneBefore : before.filter (fun m => m.1 = tagName) = [] :=
    List.filter_eq_nil_iff.2 fun m found => by simpa using untagged m found
  have tags : (before ++ (tagName, v) :: after).filter (fun m => m.1 = tagName) =
      (tagName, v) :: after.filter fun m => m.1 = tagName := by
    rw [List.filter_append, noneBefore, List.nil_append, List.filter_cons_of_pos (by simp)]
  have fields : (before ++ (tagName, v) :: after).filter (fun m => m.1 ≠ tagName) =
      before ++ after.filter fun m => m.1 ≠ tagName := by
    rw [List.filter_append, others, List.filter_cons_of_neg (by simp)]
  rw [ofValue?, tags, fields]
  by_cases single : ∀ m ∈ after, m.1 ≠ tagName
  · have noneAfter : after.filter (fun m => m.1 = tagName) = [] :=
      List.filter_eq_nil_iff.2 fun m found => by simpa using single m found
    have all : after.filter (fun m => m.1 ≠ tagName) = after :=
      List.filter_eq_self.2 fun m found => decide_eq_true (single m found)
    rw [if_pos single, noneAfter, all]
    cases v <;> rfl
  · rw [if_neg single]
    cases again : after.filter fun m => m.1 = tagName with
    | nil =>
      refine absurd (fun m found => ?_) single
      simpa using List.filter_eq_nil_iff.1 again m found
    | cons m ms => cases v <;> rfl

/-- The tag may stand anywhere among the members, and they are decoded without it. -/
theorem ofValue_of_perm {tag : String} {decode : Value → Option α} {ms own : List (String × Value)}
    (known : vs.variant? tag = some decode) (untagged : ∀ m ∈ own, m.1 ≠ tagName)
    (order : ms.Perm ((tagName, .string tag) :: own)) :
    ∃ ms', ms'.Perm own ∧ vs.ofValue? (.object ms) = decode (.object ms') := by
  obtain ⟨before, after, rfl⟩ := List.append_of_mem (order.mem_iff.2 List.mem_cons_self)
  have rest : (before ++ after).Perm own := (List.perm_middle.symm.trans order).cons_inv
  have others : ∀ m ∈ before ++ after, m.1 ≠ tagName := fun m found =>
    untagged m (rest.mem_iff.1 found)
  obtain ⟨first, second⟩ := List.forall_mem_append.1 others
  refine ⟨before ++ after, rest, (ofValue_object _ first).trans ?_⟩
  rw [if_pos second]
  simp only [tagDecoder, Decoder.refine, Decoder.string, Option.bind_some, known]

theorem ofValue_list (v : Value) (items : List Value) :
    vs.ofValue? (.list (v :: items)) =
      (vs.tagDecoder.ofValue? v).bind fun decode => decode (.list items) := by
  cases v <;> rfl

/-- Behind the tag the members are buffered, and a second tag is refused. -/
theorem members_tagged {ms : List (String × Value)}
    (read : MembersRead (value depth) first s ms rest) (decode : Value → Option α)
    (acc : List (String × Value)) {bound : List Symbol} (enough : s.length < bound.length) :
    (vs.readMembers depth first (some decode) acc bound s).toOption =
      if ∀ m ∈ ms, m.1 ≠ tagName then
        (decode (.object (acc.reverse ++ ms))).map fun x => (x, rest)
      else none := by
  induction read generalizing acc bound with
  | closed close =>
    cases bound with
    | nil => cases enough
    | cons b bound =>
      simp only [readMembers, nextName_none.2 close, Option.bind_some, List.append_nil,
        List.not_mem_nil, false_imp_iff, implies_true, ↓reduceIte]
      cases decode (.object acc.reverse) <;> rfl
  | @member first s t u w rest name v ms named joined here later ih =>
    cases bound with
    | nil => cases enough
    | cons b bound =>
      have shorter := shorter_member named joined here
      rw [List.length_cons] at enough
      simp only [readMembers, named, Option.isSome_some, and_true, List.forall_mem_cons]
      by_cases again : name = tagName
      · simp only [again, ne_eq, not_true_eq_false, false_and, ↓reduceIte]
        rfl
      · simp only [again, joined, here, ne_eq, not_false_eq_true, true_and, ↓reduceIte]
        rw [ih ((name, v) :: acc) (by omega)]
        simp only [List.reverse_cons, List.append_assoc, List.cons_append, List.nil_append, ne_eq]

/-- Members are buffered up to the tag, and its variant is decoded from them and from those
behind. -/
theorem members_untagged {ms : List (String × Value)}
    (read : MembersRead (value depth) first s ms rest) {acc : List (String × Value)}
    (untagged : ∀ m ∈ acc.reverse, m.1 ≠ tagName) {bound : List Symbol}
    (enough : s.length < bound.length) :
    (vs.readMembers depth first none acc bound s).toOption =
      (vs.ofValue? (.object (acc.reverse ++ ms))).map fun x => (x, rest) := by
  induction read generalizing acc bound with
  | closed close =>
    cases bound with
    | nil => cases enough
    | cons b bound =>
      have noTag : acc.reverse.filter (fun m => m.1 = tagName) = [] :=
        List.filter_eq_nil_iff.2 fun m found => by simpa using untagged m found
      rw [readMembers, nextName_none.2 close, List.append_nil, ofValue?, noTag]
      rfl
  | @member first s t u w rest name v ms named joined here later ih =>
    cases bound with
    | nil => cases enough
    | cons b bound =>
      have shorter := shorter_member named joined here
      rw [List.length_cons] at enough
      simp only [readMembers, named, joined, Option.isSome_none, Bool.false_eq_true, and_false,
        ↓reduceIte]
      by_cases tag : name = tagName
      · subst tag
        rw [if_pos rfl, ofValue_object v untagged]
        rcases coherent_tagDecoder.cases here with
          ⟨decode, decoded, straight⟩ | ⟨decoded, fault, straight⟩
        · have found : vs.readTag u = .ok (decode, w) := straight
          simp only [found, decoded, Option.bind_some]
          rw [members_tagged later decode acc (by omega)]
          split <;> rfl
        · have missed : vs.readTag u = .error fault := straight
          simp only [missed, decoded, Option.bind_none, ite_self]
          rfl
      · rw [if_neg tag]
        simp only [here]
        have more : ∀ m ∈ ((name, v) :: acc).reverse, m.1 ≠ tagName := by
          intro m found
          rw [List.reverse_cons, List.mem_append, List.mem_singleton] at found
          rcases found with found | rfl
          · exact untagged m found
          · exact tag
        rw [ih more (by omega)]
        simp only [List.reverse_cons, List.append_assoc, List.cons_append, List.nil_append]

theorem elements_agree {items : List Value}
    (read : ElementsRead (value depth) true s items rest) :
    (vs.readElements depth s).toOption = (vs.ofValue? (.list items)).map fun x => (x, rest) := by
  unfold readElements
  cases read with
  | closed close =>
    rw [nextElement_false.2 ⟨_, close, rfl⟩]
    rfl
  | @element _ _ t u _ v items next here later =>
    simp only [next, ofValue_list]
    rcases coherent_tagDecoder.cases here with
      ⟨decode, decoded, straight⟩ | ⟨decoded, fault, straight⟩
    · have found : vs.readTag t = .ok (decode, u) := straight
      have others : elements (value depth) false [] (none :: u) u = .ok (items, rest) :=
        later.elements_eq (value_local depth) [] (Nat.lt_succ_self _)
      simp only [found, others, decoded, Option.bind_some]
      cases decode (.list items) <;> rfl
    · have missed : vs.readTag t = .error fault := straight
      simp only [missed, decoded, Option.bind_none]
      rfl

/-- A tagged value is read from the text as it is decoded when buffered, wherever its tag stands. -/
theorem coherent_decoder : vs.decoder.Coherent := by
  apply Decoder.coherent_of_containers
  · intro depth s c t visible noList noObject
    simp only [Variants.decoder, visible]
    split
    · rfl
    · rename_i same
      exact absurd (Option.some.inj (List.cons.inj same).1) noObject
    · rename_i same
      exact absurd (Option.some.inj (List.cons.inj same).1) noList
    · exact Decoder.toOption_refuse
  · intro v noList noObject
    cases v with
    | list items => exact absurd rfl (noList items)
    | object ms => exact absurd rfl (noObject ms)
    | _ => rfl
  · intro depth s t rest items visible read
    simp only [Variants.decoder, visible, Decoder.nested]
    exact elements_agree read
  · intro depth s t rest ms visible read
    simp only [Variants.decoder, visible, Decoder.nested]
    have untagged : ∀ m ∈ ([] : List (String × Value)).reverse, m.1 ≠ tagName := by simp
    exact members_untagged read untagged (Nat.lt_succ_self _)

end Variants

/-- Where a whole text can be buffered, a decoder accepts it just if it accepts what is buffered. -/
theorem Decoder.Coherent.parse {α : Type} {d : Decoder α} (coherent : d.Coherent) {s : List Symbol}
    {v : Value} (buffered : any.parse s = .ok v) : (d.parse s).toOption = d.ofValue? v := by
  obtain ⟨rest, read, blank⟩ := Decoder.parse_eq_ok.1 buffered
  unfold Decoder.parse
  rcases coherent.cases read with ⟨x, decoded, straight⟩ | ⟨decoded, fault, straight⟩
  · simp only [decoded, straight, blank, List.isEmpty_nil, ↓reduceIte]
    rfl
  · simp only [decoded, straight]
    rfl

theorem Decoder.Coherent.parse_eq_ok {α : Type} {d : Decoder α} (coherent : d.Coherent)
    {s : List Symbol} {v : Value} (buffered : any.parse s = .ok v) {x : α} :
    d.parse s = .ok x ↔ d.ofValue? v = some x := by
  rw [← coherent.parse buffered]
  cases d.parse s <;> simp [Except.toOption]

end ChannelAgent.Json
