import ChannelAgent.Proofs.Json.Extent

set_option autoImplicit false

namespace ChannelAgent.Json

section Joints

variable {first : Bool} {name : String} {s t rest : List Symbol}

/-- An item comes next: at once if it is the first one, and behind a comma otherwise. -/
def Comes (first : Bool) (s t : List Symbol) : Prop :=
  if first then t = s else skipSpace s = some ',' :: t

theorem nextName_some : nextName first s = .ok (some name, rest) ↔
    ∃ t u, Comes first s t ∧ skipSpace t = some '"' :: u ∧ stringToken u = .ok (name, rest) := by
  unfold nextName Comes
  split
  · rename_i blank
    cases first <;> simp [blank]
  · rename_i c u visible
    by_cases close : c = some '\x7d'
    · cases first <;> simp [visible, close]
    · cases first with
      | true =>
        by_cases quote : c = some '"'
        · simp [visible, quote, map_eq_ok]
        · simp [visible, quote, close]
      | false =>
        by_cases comma : c = some ','
        · cases after : skipSpace u with
          | nil => simp [visible, comma, after]
          | cons d w =>
            by_cases quote : d = some '"'
            · simp [visible, comma, after, quote, map_eq_ok]
            · simp [visible, comma, after, quote]
        · simp [visible, comma, close]

theorem nextName_none : nextName first s = .ok (none, rest) ↔ skipSpace s = some '\x7d' :: rest := by
  unfold nextName
  split
  · rename_i blank
    simp [blank]
  · rename_i c u visible
    by_cases close : c = some '\x7d'
    · simp [visible, close]
    · -- whatever else comes is a name or a fault
      have named (v : List Symbol) :
          (stringToken v).map (fun r => (some r.1, r.2)) ≠ .ok (none, rest) := by
        simp [map_eq_ok]
      simp only [visible, close, ↓reduceIte, List.cons.injEq, false_and, iff_false]
      cases first with
      | true =>
        simp only [↓reduceIte]
        split
        · exact named u
        · nofun
      | false =>
        simp only [Bool.false_eq_true, ↓reduceIte]
        split
        · split
          · nofun
          · split
            · exact named _
            · nofun
        · nofun

theorem nextElement_true : nextElement first s = .ok (true, rest) ↔
    ∃ t c u, Comes first s t ∧ skipSpace t = c :: u ∧ c ≠ some ']' ∧ rest = c :: u := by
  unfold nextElement Comes
  split
  · rename_i blank
    cases first <;> simp [blank]
  · rename_i c u visible
    by_cases close : c = some ']'
    · cases first <;> simp [visible, close]
    · cases first with
      | true => simp [visible, close, eq_comm]
      | false =>
        by_cases comma : c = some ','
        · cases after : skipSpace u with
          | nil => simp [visible, comma, after]
          | cons d w =>
            by_cases last : d = some ']'
            · simp [visible, comma, after, last]
            · simp [visible, comma, after, last, eq_comm]
        · simp [visible, comma, close]

theorem nextElement_false : nextElement first s = .ok (false, rest) ↔
    ∃ u, skipSpace s = some ']' :: u ∧ rest = some ']' :: u := by
  unfold nextElement
  split
  · rename_i blank
    simp [blank]
  · rename_i c u visible
    by_cases close : c = some ']'
    · simp [visible, close, eq_comm]
    · simp only [visible, close, ↓reduceIte, List.cons.injEq, false_and, exists_false, iff_false]
      cases first with
      | true => nofun
      | false =>
        simp only [Bool.false_eq_true, ↓reduceIte]
        split
        · split
          · nofun
          · split <;> nofun
        · nofun

theorem colon_ok : colon s = .ok rest ↔ skipSpace s = some ':' :: rest := by
  unfold colon
  split
  · rename_i blank
    simp [blank]
  · rename_i c u visible
    by_cases mark : c = some ':'
    · simp [visible, mark]
    · simp [visible, mark]

theorem closeList_ok : closeList s = .ok rest ↔ skipSpace s = some ']' :: rest := by
  unfold closeList
  split
  · rename_i blank
    simp [blank]
  · rename_i c u visible
    by_cases mark : c = some ']'
    · simp [visible, mark]
    · simp [visible, mark]

theorem Comes.extent (comes : Comes first s t) :
    ∃ taken, s = taken ++ t ∧ ∀ more, Comes first (taken ++ more) more := by
  cases first with
  | true => exact ⟨[], comes.symm, fun _ => rfl⟩
  | false =>
    obtain ⟨taken, whole, -, again⟩ := skipSpace_taken comes
    exact ⟨taken, whole, again⟩

theorem Comes.ends (comes : Comes false s t) : Ends s :=
  ends_of_skipSpace comes (by decide)

theorem nextName_extent (named : nextName first s = .ok (some name, rest)) :
    ∃ taken, s = taken ++ rest ∧
      ∀ more, nextName first (taken ++ more) = .ok (some name, more) := by
  obtain ⟨t, u, comes, quote, read⟩ := nextName_some.1 named
  obtain ⟨front, rfl, again⟩ := comes.extent
  obtain ⟨space, rfl, -, quoted⟩ := skipSpace_taken quote
  obtain ⟨taken, rfl, ends, -⟩ := stringToken_extent read
  refine ⟨front ++ space ++ taken, by simp, fun more => nextName_some.2 ?_⟩
  refine ⟨space ++ (taken ++ more), taken ++ more, ?_, quoted _, ends more⟩
  simpa using again (space ++ (taken ++ more))

theorem nextElement_extent (next : nextElement first s = .ok (true, rest)) :
    rest ≠ [] ∧ ∃ taken, s = taken ++ rest ∧
      ∀ more, more.head? = rest.head? → nextElement first (taken ++ more) = .ok (true, more) := by
  obtain ⟨t, c, u, comes, visible, unclosed, rfl⟩ := nextElement_true.1 next
  obtain ⟨front, rfl, again⟩ := comes.extent
  obtain ⟨shown, space, rfl, -, skipped⟩ := skipSpace_extent visible
  refine ⟨List.cons_ne_nil c u, front ++ space, by simp, fun more same => ?_⟩
  cases more with
  | nil => cases same
  | cons x more =>
    obtain rfl := Option.some.inj same
    have first : skipSpace (space ++ x :: more) = x :: more := by
      rw [skipped, skipSpace_cons_of_visible shown]
    refine nextElement_true.2 ⟨space ++ x :: more, x, more, ?_, first, unclosed, rfl⟩
    simpa using again (space ++ x :: more)

theorem colon_extent (joined : colon s = .ok rest) :
    ∃ taken, s = taken ++ rest ∧ ∀ more, colon (taken ++ more) = .ok more := by
  obtain ⟨taken, whole, -, again⟩ := skipSpace_taken (colon_ok.1 joined)
  exact ⟨taken, whole, fun more => colon_ok.2 (again more)⟩

end Joints

/-- Elements and the closing bracket, read one after the other. -/
inductive ElementsRead {α : Type} (item : Reader α) :
    (first : Bool) → List Symbol → List α → List Symbol → Prop
  | closed {first : Bool} {s rest : List Symbol} (close : skipSpace s = some ']' :: rest) :
      ElementsRead item first s [] rest
  | element {first : Bool} {s t u rest : List Symbol} {x : α} {xs : List α}
      (next : nextElement first s = .ok (true, t)) (read : item t = .ok (x, u))
      (later : ElementsRead item false u xs rest) : ElementsRead item first s (x :: xs) rest

/-- Members and the closing brace, read one after the other. -/
inductive MembersRead {α : Type} (item : Reader α) :
    (first : Bool) → List Symbol → List (String × α) → List Symbol → Prop
  | closed {first : Bool} {s rest : List Symbol} (close : skipSpace s = some '\x7d' :: rest) :
      MembersRead item first s [] rest
  | member {first : Bool} {s t u v rest : List Symbol} {name : String} {x : α}
      {ms : List (String × α)} (named : nextName first s = .ok (some name, t))
      (joined : colon t = .ok u) (read : item u = .ok (x, v))
      (later : MembersRead item false v ms rest) : MembersRead item first s ((name, x) :: ms) rest

/-- What a reader takes, it takes whatever follows, and it takes something. -/
def Local {α : Type} (item : Reader α) : Prop :=
  ∀ {s x rest}, item s = .ok (x, rest) →
    ∃ taken, s = taken ++ rest ∧ taken ≠ [] ∧ Takes item taken x

section Loops

variable {α : Type} {item : Reader α} {first : Bool} {s rest : List Symbol}

theorem elements_read {acc xs : List α} {bound : List Symbol}
    (read : elements item first acc bound s = .ok (xs, rest)) :
    ∃ ys, xs = acc.reverse ++ ys ∧ ElementsRead item first s ys rest := by
  induction bound generalizing first acc s with
  | nil => cases read
  | cons b bound ih =>
    rw [elements] at read
    split at read
    · cases read
    · rename_i t next
      obtain ⟨u, close, same⟩ := nextElement_false.1 next
      rw [same] at read
      obtain ⟨rfl, rfl⟩ := Prod.mk.inj (Except.ok.inj read)
      exact ⟨[], by simp, .closed close⟩
    · rename_i t next
      split at read
      · cases read
      · rename_i x u here
        obtain ⟨ys, rfl, later⟩ := ih read
        exact ⟨x :: ys, by simp, .element next here later⟩

theorem members_read {acc ms : List (String × α)} {bound : List Symbol}
    (read : members item first acc bound s = .ok (ms, rest)) :
    ∃ more, ms = acc.reverse ++ more ∧ MembersRead item first s more rest := by
  induction bound generalizing first acc s with
  | nil => cases read
  | cons b bound ih =>
    rw [members] at read
    split at read
    · cases read
    · rename_i t close
      obtain ⟨rfl, rfl⟩ := Prod.mk.inj (Except.ok.inj read)
      exact ⟨[], by simp, .closed (nextName_none.1 close)⟩
    · rename_i name t named
      split at read
      · cases read
      · rename_i u joined
        split at read
        · cases read
        · rename_i x v here
          obtain ⟨more, rfl, later⟩ := ih read
          exact ⟨(name, x) :: more, by simp, .member named joined here later⟩

theorem ElementsRead.ends {xs : List α} (read : ElementsRead item false s xs rest) : Ends s := by
  cases read with
  | closed close => exact ends_of_skipSpace close (by decide)
  | element next _ _ =>
    obtain ⟨t, c, u, comes, -⟩ := nextElement_true.1 next
    exact comes.ends

theorem MembersRead.ends {ms : List (String × α)} (read : MembersRead item false s ms rest) :
    Ends s := by
  cases read with
  | closed close => exact ends_of_skipSpace close (by decide)
  | member named _ _ _ =>
    obtain ⟨t, u, comes, -⟩ := nextName_some.1 named
    exact comes.ends

/-- Elements are read as they are, whatever follows the closing bracket. -/
theorem ElementsRead.extent (items : Local item) {xs : List α}
    (read : ElementsRead item first s xs rest) :
    ∃ taken, s = taken ++ rest ∧ taken ≠ [] ∧
      ∀ more, ElementsRead item first (taken ++ more) xs more := by
  induction read with
  | closed close =>
    obtain ⟨taken, whole, some, again⟩ := skipSpace_taken close
    exact ⟨taken, whole, some, fun more => .closed (again more)⟩
  | @element first s t u rest x xs next here later ih =>
    obtain ⟨-, joint, rfl, again⟩ := nextElement_extent next
    obtain ⟨text, rfl, nonempty, takes⟩ := items here
    obtain ⟨tail, rfl, remains, goesOn⟩ := ih
    refine ⟨joint ++ text ++ tail, by simp, by simp [nonempty], fun more => ?_⟩
    have ends : Ends (tail ++ more) := (ends_append remains).2 ((ends_append remains).1 later.ends)
    have same : (text ++ (tail ++ more)).head? = (text ++ (tail ++ rest)).head? := by
      cases text with
      | nil => exact absurd rfl nonempty
      | cons c text => rfl
    have next := again _ same
    rw [← List.append_assoc] at next
    simpa using ElementsRead.element next (takes _ ends) (goesOn more)

/-- Members are read as they are, whatever follows the closing brace. -/
theorem MembersRead.extent (items : Local item) {ms : List (String × α)}
    (read : MembersRead item first s ms rest) :
    ∃ taken, s = taken ++ rest ∧ taken ≠ [] ∧
      ∀ more, MembersRead item first (taken ++ more) ms more := by
  induction read with
  | closed close =>
    obtain ⟨taken, whole, some, again⟩ := skipSpace_taken close
    exact ⟨taken, whole, some, fun more => .closed (again more)⟩
  | @member first s t u v rest name x ms named joined here later ih =>
    obtain ⟨joint, rfl, names⟩ := nextName_extent named
    obtain ⟨mark, rfl, joins⟩ := colon_extent joined
    obtain ⟨text, rfl, nonempty, takes⟩ := items here
    obtain ⟨tail, rfl, remains, goesOn⟩ := ih
    refine ⟨joint ++ mark ++ text ++ tail, by simp, by simp [nonempty], fun more => ?_⟩
    have ends : Ends (tail ++ more) := (ends_append remains).2 ((ends_append remains).1 later.ends)
    have read := MembersRead.member (names _) (joins _) (takes _ ends) (goesOn more)
    simpa using read

end Loops

/-- Reads a value that is neither a list nor an object and starts with `c`. -/
def scalar (c : Char) (t : List Symbol) : Except Fault (Value × List Symbol) :=
  if c = 'n' then (keyword ['u', 'l', 'l'] t).map fun r => (.null, r)
  else if c = 't' then (keyword ['r', 'u', 'e'] t).map fun r => (.bool true, r)
  else if c = 'f' then (keyword ['a', 'l', 's', 'e'] t).map fun r => (.bool false, r)
  else if c = '-' then (numberToken true t).map fun r => (.number r.1, r.2)
  else if '0' ≤ c ∧ c ≤ '9' then (numberToken false (some c :: t)).map fun r => (.number r.1, r.2)
  else if c = '"' then (stringToken t).map fun r => (.string r.1, r.2)
  else .error .malformed

section Scalars

variable {list object : Reader Value} {c : Char} {s t rest : List Symbol} {v : Value}

theorem token_of_list (visible : skipSpace s = some '[' :: t) : token list object s = list t := by
  rw [token, visible]
  rfl

theorem token_of_object (visible : skipSpace s = some '\x7b' :: t) :
    token list object s = object t := by
  rw [token, visible]
  rfl

theorem token_of_scalar (visible : skipSpace s = some c :: t) (noList : c ≠ '[')
    (noObject : c ≠ '\x7b') : token list object s = scalar c t := by
  simp only [token, visible, scalar, noList, noObject, ↓reduceIte]

theorem scalar_digit (digit : '0' ≤ c ∧ c ≤ '9') :
    scalar c t = (numberToken false (some c :: t)).map (fun r => (.number r.1, r.2)) ∧
      skipScalar c t = skipNumber (some c :: t) := by
  have apart {x : Char} (other : ¬ ('0' ≤ x ∧ x ≤ '9')) : c ≠ x := fun same => other (same ▸ digit)
  have n : c ≠ 'n' := apart (by decide)
  have t' : c ≠ 't' := apart (by decide)
  have f : c ≠ 'f' := apart (by decide)
  have sign : c ≠ '-' := apart (by decide)
  constructor
  · rw [scalar, if_neg n, if_neg t', if_neg f, if_neg sign, if_pos digit]
  · rw [skipScalar, if_neg n, if_neg t', if_neg f, if_neg sign, if_pos digit]

/-- The characters that start a scalar. -/
theorem starts_scalar (read : scalar c t = .ok (v, rest)) :
    c = 'n' ∨ c = 't' ∨ c = 'f' ∨ c = '-' ∨ ('0' ≤ c ∧ c ≤ '9') ∨ c = '"' := by
  by_contra none
  simp only [not_or] at none
  obtain ⟨n, t', f, sign, digit, quote⟩ := none
  rw [scalar, if_neg n, if_neg t', if_neg f, if_neg sign, if_neg digit, if_neg quote] at read
  cases read

/-- A scalar is null, a string, or something else, and its first character tells which. -/
theorem scalar_cases (read : scalar c t = .ok (v, rest)) :
    (c = 'n' ∧ v = .null ∧ keyword ['u', 'l', 'l'] t = .ok rest) ∨
      (c = '"' ∧ ∃ text, v = .string text ∧ stringToken t = .ok (text, rest)) ∨
      (c ≠ 'n' ∧ c ≠ '"' ∧ ((∃ b, v = .bool b) ∨ ∃ n, v = .number n)) := by
  rcases starts_scalar read with rfl | rfl | rfl | rfl | digit | rfl
  · obtain ⟨r, word, same⟩ := map_eq_ok.1 read
    obtain ⟨rfl, rfl⟩ := Prod.mk.inj same
    exact .inl ⟨rfl, rfl, word⟩
  · obtain ⟨r, -, same⟩ := map_eq_ok.1 read
    exact .inr (.inr ⟨by decide, by decide, .inl ⟨true, (congrArg Prod.fst same).symm⟩⟩)
  · obtain ⟨r, -, same⟩ := map_eq_ok.1 read
    exact .inr (.inr ⟨by decide, by decide, .inl ⟨false, (congrArg Prod.fst same).symm⟩⟩)
  · obtain ⟨r, -, same⟩ := map_eq_ok.1 read
    exact .inr (.inr ⟨by decide, by decide, .inr ⟨r.1, (congrArg Prod.fst same).symm⟩⟩)
  · rw [(scalar_digit digit).1] at read
    obtain ⟨r, -, same⟩ := map_eq_ok.1 read
    refine .inr (.inr ⟨?_, ?_, .inr ⟨r.1, (congrArg Prod.fst same).symm⟩⟩)
    · rintro rfl
      exact absurd digit (by decide)
    · rintro rfl
      exact absurd digit (by decide)
  · obtain ⟨⟨text, r⟩, string, same⟩ := map_eq_ok.1 read
    obtain ⟨rfl, rfl⟩ := Prod.mk.inj same
    exact .inr (.inl ⟨rfl, text, rfl, string⟩)

/-- A scalar is taken whatever follows, if a number ends there, and is skipped as it is taken. -/
theorem scalar_extent (read : scalar c t = .ok (v, rest)) :
    skipScalar c t = .ok rest ∧
      ∃ taken, t = taken ++ rest ∧ ∀ more, Ends more → scalar c (taken ++ more) = .ok (v, more) := by
  have word {letters : List Char} {x : Value}
      (read : (keyword letters t).map (fun r => (x, r)) = .ok (v, rest)) :
      keyword letters t = .ok rest ∧ t = letters.map some ++ rest ∧
        ∀ more, (keyword letters (letters.map some ++ more)).map (fun r => (x, r)) =
          .ok (v, more) := by
    obtain ⟨r, found, same⟩ := map_eq_ok.1 read
    obtain ⟨rfl, rfl⟩ := Prod.mk.inj same
    exact ⟨found, keyword_extent found, fun more => by rw [keyword_append]; rfl⟩
  rcases starts_scalar read with rfl | rfl | rfl | rfl | digit | rfl
  · obtain ⟨found, whole, again⟩ := word read
    exact ⟨found, _, whole, fun more _ => again more⟩
  · obtain ⟨found, whole, again⟩ := word read
    exact ⟨found, _, whole, fun more _ => again more⟩
  · obtain ⟨found, whole, again⟩ := word read
    exact ⟨found, _, whole, fun more _ => again more⟩
  · obtain ⟨⟨n, r⟩, found, same⟩ := map_eq_ok.1 read
    obtain ⟨rfl, rfl⟩ := Prod.mk.inj same
    obtain ⟨skipped, d, taken, whole, -, again⟩ := numberToken_extent found
    exact ⟨skipped, d :: taken, whole, fun more ends => map_eq_ok.2 ⟨_, again more ends, rfl⟩⟩
  · rw [(scalar_digit digit).1] at read
    obtain ⟨⟨n, r⟩, found, same⟩ := map_eq_ok.1 read
    obtain ⟨rfl, rfl⟩ := Prod.mk.inj same
    obtain ⟨skipped, d, taken, whole, -, again⟩ := numberToken_extent found
    obtain ⟨rfl, behind⟩ := List.cons.inj whole
    refine ⟨(scalar_digit digit).2.trans skipped, taken, behind, fun more ends => ?_⟩
    rw [(scalar_digit digit).1]
    exact map_eq_ok.2 ⟨_, again more ends, rfl⟩
  · obtain ⟨⟨text, r⟩, found, same⟩ := map_eq_ok.1 read
    obtain ⟨rfl, rfl⟩ := Prod.mk.inj same
    obtain ⟨taken, whole, again, skipped⟩ := stringToken_extent found
    exact ⟨skipped, taken, whole, fun more _ => map_eq_ok.2 ⟨_, again more, rfl⟩⟩

end Scalars

/-- A value is read as a scalar, as a list or as an object, the last two where the depth allows one
more container. -/
inductive ValueRead : (depth : Nat) → List Symbol → Value → List Symbol → Prop
  | scalar {depth : Nat} {c : Char} {s t rest : List Symbol} {v : Value}
      (visible : skipSpace s = some c :: t) (noList : c ≠ '[') (noObject : c ≠ '\x7b')
      (read : scalar c t = .ok (v, rest)) : ValueRead depth s v rest
  | list {depth : Nat} {s t rest : List Symbol} {items : List Value}
      (visible : skipSpace s = some '[' :: t)
      (read : ElementsRead (value depth) true t items rest) :
      ValueRead (depth + 1) s (.list items) rest
  | object {depth : Nat} {s t rest : List Symbol} {ms : List (String × Value)}
      (visible : skipSpace s = some '\x7b' :: t)
      (read : MembersRead (value depth) true t ms rest) :
      ValueRead (depth + 1) s (.object ms) rest

section Values

variable {depth : Nat} {s rest : List Symbol} {v : Value}

/-- Behind its first visible symbol a value is a list, an object or a scalar. -/
theorem token_cases {list object : Reader Value} (read : token list object s = .ok (v, rest)) :
    ∃ c t, skipSpace s = some c :: t ∧
      ((c = '[' ∧ list t = .ok (v, rest)) ∨ (c = '\x7b' ∧ object t = .ok (v, rest)) ∨
        (c ≠ '[' ∧ c ≠ '\x7b' ∧ scalar c t = .ok (v, rest))) := by
  cases visible : skipSpace s with
  | nil =>
    rw [token, visible] at read
    cases read
  | cons x t =>
    cases x with
    | none =>
      rw [token, visible] at read
      cases read
    | some c =>
      refine ⟨c, t, rfl, ?_⟩
      by_cases noList : c = '['
      · subst noList
        exact .inl ⟨rfl, (token_of_list visible).symm.trans read⟩
      · by_cases noObject : c = '\x7b'
        · subst noObject
          exact .inr (.inl ⟨rfl, (token_of_object visible).symm.trans read⟩)
        · exact .inr (.inr ⟨noList, noObject, (token_of_scalar visible noList noObject).symm.trans read⟩)

theorem value_read (read : value depth s = .ok (v, rest)) : ValueRead depth s v rest := by
  cases depth with
  | zero =>
    obtain ⟨c, t, visible, ⟨rfl, bad⟩ | ⟨rfl, bad⟩ | ⟨noList, noObject, read⟩⟩ := token_cases read
    · cases bad
    · cases bad
    · exact .scalar visible noList noObject read
  | succ depth =>
    obtain ⟨c, t, visible, ⟨rfl, read⟩ | ⟨rfl, read⟩ | ⟨noList, noObject, read⟩⟩ := token_cases read
    · obtain ⟨⟨items, r⟩, found, same⟩ := map_eq_ok.1 read
      obtain ⟨rfl, rfl⟩ := Prod.mk.inj same
      obtain ⟨ys, rfl, read⟩ := elements_read found
      exact .list visible read
    · obtain ⟨⟨ms, r⟩, found, same⟩ := map_eq_ok.1 read
      obtain ⟨rfl, rfl⟩ := Prod.mk.inj same
      obtain ⟨more, rfl, read⟩ := members_read found
      exact .object visible read
    · exact .scalar visible noList noObject read

theorem value_scalar {c : Char} {t : List Symbol} (visible : skipSpace s = some c :: t)
    (noList : c ≠ '[') (noObject : c ≠ '\x7b') : value depth s = scalar c t := by
  cases depth with
  | zero => exact token_of_scalar visible noList noObject
  | succ depth => exact token_of_scalar visible noList noObject

theorem value_list {t : List Symbol} (visible : skipSpace s = some '[' :: t) :
    value (depth + 1) s = (listOf (value depth) t).map fun r => (.list r.1, r.2) :=
  token_of_list visible

theorem value_object {t : List Symbol} (visible : skipSpace s = some '\x7b' :: t) :
    value (depth + 1) s = (objectOf (value depth) t).map fun r => (.object r.1, r.2) :=
  token_of_object visible

theorem value_skipSpace : value depth (skipSpace s) = value depth s := by
  cases depth <;> simp only [value, token, skipSpace_skipSpace]

end Values

section Bounds

variable {α : Type} {item : Reader α} {first : Bool} {s rest : List Symbol}

theorem Local.shorter (items : Local item) {x : α} (read : item s = .ok (x, rest)) :
    rest.length < s.length := by
  obtain ⟨taken, rfl, some, -⟩ := items read
  have positive := List.length_pos_of_ne_nil some
  rw [List.length_append]
  omega

theorem nextName_shorter {name : String} (named : nextName first s = .ok (some name, rest)) :
    rest.length ≤ s.length := by
  obtain ⟨taken, rfl, -⟩ := nextName_extent named
  rw [List.length_append]
  omega

theorem nextElement_shorter (next : nextElement first s = .ok (true, rest)) :
    rest.length ≤ s.length := by
  obtain ⟨-, taken, rfl, -⟩ := nextElement_extent next
  rw [List.length_append]
  omega

theorem colon_shorter (joined : colon s = .ok rest) : rest.length ≤ s.length := by
  obtain ⟨taken, rfl, -⟩ := colon_extent joined
  rw [List.length_append]
  omega

theorem Local.shorter_member (items : Local item) {name : String} {x : α} {t u : List Symbol}
    (named : nextName first s = .ok (some name, t)) (joined : colon t = .ok u)
    (read : item u = .ok (x, rest)) : rest.length < s.length := by
  have upToName := nextName_shorter named
  have upToColon := colon_shorter joined
  have upToItem := items.shorter read
  omega

/-- A bound of one more than the text is never reached, since every element takes something. -/
theorem ElementsRead.elements_eq (items : Local item) {xs : List α}
    (read : ElementsRead item first s xs rest) (acc : List α) {bound : List Symbol}
    (enough : s.length < bound.length) :
    elements item first acc bound s = .ok (acc.reverse ++ xs, rest) := by
  induction read generalizing acc bound with
  | closed close =>
    cases bound with
    | nil => cases enough
    | cons b bound =>
      rw [elements, nextElement_false.2 ⟨_, close, rfl⟩, List.append_nil]
      rfl
  | element next here later ih =>
    cases bound with
    | nil => cases enough
    | cons b bound =>
      have less := items.shorter here
      have joint := nextElement_shorter next
      rw [List.length_cons] at enough
      simp only [elements, next, here]
      rw [ih _ (by omega)]
      simp

theorem MembersRead.members_eq (items : Local item) {ms : List (String × α)}
    (read : MembersRead item first s ms rest) (acc : List (String × α)) {bound : List Symbol}
    (enough : s.length < bound.length) :
    members item first acc bound s = .ok (acc.reverse ++ ms, rest) := by
  induction read generalizing acc bound with
  | closed close =>
    cases bound with
    | nil => cases enough
    | cons b bound =>
      rw [members, nextName_none.2 close, List.append_nil]
  | member named joined here later ih =>
    cases bound with
    | nil => cases enough
    | cons b bound =>
      have less := items.shorter_member named joined here
      rw [List.length_cons] at enough
      simp only [members, named, joined, here]
      rw [ih _ (by omega)]
      simp

theorem listOf_iff (items : Local item) {xs : List α} :
    listOf item s = .ok (xs, rest) ↔ ElementsRead item true s xs rest := by
  constructor
  · intro read
    obtain ⟨ys, rfl, read⟩ := elements_read read
    exact read
  · intro read
    exact read.elements_eq items [] (Nat.lt_succ_self _)

theorem objectOf_iff (items : Local item) {ms : List (String × α)} :
    objectOf item s = .ok (ms, rest) ↔ MembersRead item true s ms rest := by
  constructor
  · intro read
    obtain ⟨more, rfl, read⟩ := members_read read
    exact read
  · intro read
    exact read.members_eq items [] (Nat.lt_succ_self _)

end Bounds

theorem scalar_takes {depth : Nat} {c : Char} {s t rest : List Symbol} {v : Value}
    (visible : skipSpace s = some c :: t) (noList : c ≠ '[') (noObject : c ≠ '\x7b')
    (read : scalar c t = .ok (v, rest)) :
    ∃ taken, s = taken ++ rest ∧ taken ≠ [] ∧ Takes (value depth) taken v := by
  obtain ⟨-, taken, rfl, again⟩ := scalar_extent read
  obtain ⟨front, rfl, some, fronts⟩ := skipSpace_taken visible
  refine ⟨front ++ taken, by simp, by simp [some], fun more ends => ?_⟩
  rw [List.append_assoc, value_scalar (fronts _) noList noObject]
  exact again more ends

/-- A value is buffered from its own text, whatever follows it. -/
theorem value_local (depth : Nat) : Local (value depth) := by
  induction depth with
  | zero =>
    intro s v rest read
    cases value_read read with
    | scalar visible noList noObject read => exact scalar_takes visible noList noObject read
  | succ depth ih =>
    intro s v rest read
    cases value_read read with
    | scalar visible noList noObject read => exact scalar_takes visible noList noObject read
    | list visible read =>
      obtain ⟨taken, rfl, -, again⟩ := read.extent ih
      obtain ⟨front, whole, some, fronts⟩ := skipSpace_taken visible
      refine ⟨front ++ taken, by simp [whole], by simp [some], fun more _ => ?_⟩
      rw [List.append_assoc, value_list (fronts _), (listOf_iff ih).2 (again more)]
      rfl
    | object visible read =>
      obtain ⟨taken, rfl, -, again⟩ := read.extent ih
      obtain ⟨front, whole, some, fronts⟩ := skipSpace_taken visible
      refine ⟨front ++ taken, by simp [whole], by simp [some], fun more _ => ?_⟩
      rw [List.append_assoc, value_object (fronts _), (objectOf_iff ih).2 (again more)]
      rfl

theorem shorter_member {depth : Nat} {first : Bool} {name : String} {s t u rest : List Symbol}
    {v : Value} (named : nextName first s = .ok (some name, t)) (joined : colon t = .ok u)
    (read : value depth u = .ok (v, rest)) : rest.length < s.length :=
  Local.shorter_member (value_local depth) named joined read

theorem parse_object_iff {s : List Symbol} {ms : List (String × Value)} :
    Decoder.any.parse s = .ok (.object ms) ↔ ∃ t, skipSpace s = some '\x7b' :: t ∧
      ∃ rest, MembersRead (value 126) true t ms rest ∧ skipSpace rest = [] := by
  rw [Decoder.parse_eq_ok]
  constructor
  · rintro ⟨rest, read, blank⟩
    cases value_read read with
    | scalar _ _ _ scalar =>
      rcases scalar_cases scalar with ⟨-, bad, -⟩ | ⟨-, _, bad, -⟩ | ⟨-, -, ⟨_, bad⟩ | ⟨_, bad⟩⟩ <;>
        cases bad
    | object visible read => exact ⟨_, visible, rest, read, blank⟩
  · rintro ⟨t, visible, rest, read, blank⟩
    refine ⟨rest, ?_, blank⟩
    change value 127 s = _
    rw [value_object visible, (objectOf_iff (value_local 126)).2 read]
    rfl

/-- Each member is read at some place of the text. -/
theorem MembersRead.read_of_mem {α : Type} {item : Reader α} (items : Local item) {first : Bool}
    {s rest : List Symbol} {ms : List (String × α)} (read : MembersRead item first s ms rest)
    {m : String × α} (found : m ∈ ms) : ∃ u v, u <:+ s ∧ item u = .ok (m.2, v) := by
  induction read with
  | closed _ => cases found
  | @member first s t u v rest name x ms named joined here later ih =>
    obtain ⟨joint, rfl, -⟩ := nextName_extent named
    obtain ⟨mark, rfl, -⟩ := colon_extent joined
    rcases List.mem_cons.1 found with rfl | found
    · exact ⟨u, v, (List.suffix_append mark u).trans (List.suffix_append joint _), here⟩
    · obtain ⟨u', v', within, read⟩ := ih found
      obtain ⟨text, rfl, -, -⟩ := items here
      have behind : v <:+ joint ++ (mark ++ (text ++ v)) :=
        (List.suffix_append text v).trans
          ((List.suffix_append mark _).trans (List.suffix_append joint _))
      exact ⟨u', v', within.trans behind, read⟩

/-- Members with their texts and values are read one by one, each up to the joint behind it. -/
theorem membersRead_written {α : Type} {item : Reader α} {written : List (String × List Char × α)}
    (takes : ∀ w ∈ written, Takes item (w.2.1.map some) w.2.2) (first : Bool) (rest : List Symbol) :
    MembersRead item first (memberSymbols first (written.map fun w => (w.1, w.2.1)) rest)
      (written.map fun w => (w.1, w.2.2)) rest := by
  induction written generalizing first with
  | nil => exact .closed (nextName_none.1 (nextName_close first rest))
  | cons w written ih =>
    obtain ⟨here, later⟩ := List.forall_mem_cons.1 takes
    have others := ih later false
    exact .member (nextName_member first w.1 w.2.1 _ rest) (colon_eq _) (here _ others.ends) others

theorem reads_object {depth : Nat} (written : List (String × List Char × Value))
    (takes : ∀ w ∈ written, Takes (value depth) (w.2.1.map some) w.2.2) :
    Reads (value (depth + 1)) (writeObject (written.map fun w => (w.1, w.2.1)))
      (.object (written.map fun w => (w.1, w.2.2))) := by
  intro rest
  have opened : skipSpace (some '\x7b' :: memberSymbols true (written.map fun w => (w.1, w.2.1)) rest) =
      some '\x7b' :: memberSymbols true (written.map fun w => (w.1, w.2.1)) rest :=
    skipSpace_cons_of_visible (by decide)
  rw [map_writeObject, value_object opened,
    (objectOf_iff (value_local depth)).2 (membersRead_written takes true rest)]
  rfl

end ChannelAgent.Json
