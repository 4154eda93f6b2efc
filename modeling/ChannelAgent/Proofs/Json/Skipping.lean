import ChannelAgent.Proofs.Json.Buffering

set_option autoImplicit false

namespace ChannelAgent.Json

/-- A skipping reader comes from one place to another without running out of its bound. -/
def Skips (seek : Seek) (enclosing : Enclosing) (s : List Symbol) (seek' : Seek)
    (enclosing' : Enclosing) (s' : List Symbol) : Prop :=
  ∀ bound : List Symbol, s.length < bound.length → ∃ bound' : List Symbol,
    s'.length < bound'.length ∧
      skipFrom bound seek enclosing s = skipFrom bound' seek' enclosing' s'

section

variable {seek : Seek} {enclosing : Enclosing} {c : Char} {s t rest : List Symbol}

theorem Skips.trans {seek' seek'' : Seek} {enclosing' enclosing'' : Enclosing}
    {s' s'' : List Symbol} (first : Skips seek enclosing s seek' enclosing' s')
    (second : Skips seek' enclosing' s' seek'' enclosing'' s'') :
    Skips seek enclosing s seek'' enclosing'' s'' := by
  intro bound enough
  obtain ⟨between, left, same⟩ := first bound enough
  obtain ⟨bound', left', same'⟩ := second between left
  exact ⟨bound', left', same.trans same'⟩

theorem length_skipSpace (s : List Symbol) : (skipSpace s).length ≤ s.length :=
  List.length_dropWhile_le isSpace s

/-- One symbol on, given what the reader does there. -/
theorem Skips.once (visible : skipSpace s = some c :: t) (shorter : rest.length ≤ t.length)
    {seek' : Seek} {enclosing' : Enclosing}
    (step : ∀ b bound, skipFrom (b :: bound) seek enclosing s =
      skipFrom bound seek' enclosing' rest) :
    Skips seek enclosing s seek' enclosing' rest := by
  intro bound enough
  have less := length_skipSpace s
  rw [visible, List.length_cons] at less
  cases bound with
  | nil => cases enough
  | cons b bound =>
    rw [List.length_cons] at enough
    exact ⟨bound, by omega, step b bound⟩

/-- The reader looks for something else without moving on, except over white space. -/
theorem Skips.looking {mid seek' : Seek} {enclosing' : Enclosing} {s' : List Symbol}
    (no_longer : s'.length ≤ s.length)
    (same : ∀ b bound, skipFrom (b :: bound) seek enclosing s =
      skipFrom (b :: bound) mid enclosing s')
    (later : Skips mid enclosing s' seek' enclosing' rest) :
    Skips seek enclosing s seek' enclosing' rest := by
  intro bound enough
  obtain ⟨bound', left, goesOn⟩ := later bound (by omega)
  cases bound with
  | nil => cases enough
  | cons b bound => exact ⟨bound', left, (same b bound).trans goesOn⟩

theorem skips_scalar (visible : skipSpace s = some c :: t) (skipped : skipScalar c t = .ok rest)
    (shorter : rest.length ≤ t.length) : Skips .value enclosing s .afterValue enclosing rest := by
  have noList : c ≠ '[' := by
    rintro rfl
    cases skipped
  have noObject : c ≠ '\x7b' := by
    rintro rfl
    cases skipped
  refine .once visible shorter fun b bound => ?_
  simp only [skipFrom, visible, Seek.atSymbol, noList, noObject, skipped, reduceCtorEq,
    false_and, ↓reduceIte]

theorem skips_open (isList : Bool) (visible : skipSpace s = some (if isList then '[' else '\x7b') :: t) :
    Skips .value enclosing s .afterOpen (isList :: enclosing) t := by
  refine .once visible (Nat.le_refl _) fun b bound => ?_
  cases isList
  · simp only [Bool.false_eq_true, ↓reduceIte] at visible
    simp [skipFrom, visible, Seek.atSymbol]
  · simp only [↓reduceIte] at visible
    simp [skipFrom, visible, Seek.atSymbol]

theorem skips_close (isList : Bool) (behind : seek ≠ .value)
    (visible : skipSpace s = some (if isList then ']' else '\x7d') :: t) :
    Skips seek (isList :: enclosing) s .afterValue enclosing t := by
  refine .once visible (Nat.le_refl _) fun b bound => ?_
  cases seek with
  | value => exact absurd rfl behind
  | afterValue => cases isList <;> simp_all [skipFrom, Seek.atSymbol]
  | afterOpen => cases isList <;> simp_all [skipFrom, Seek.atSymbol]

/-- What is looked for next to an item that has not come yet. -/
def Seek.beforeItem (first : Bool) : Seek := if first then .afterOpen else .afterValue

theorem Seek.beforeItem_ne_value (first : Bool) : Seek.beforeItem first ≠ .value := by
  cases first <;> decide

theorem skips_space {seek' : Seek} {enclosing' : Enclosing}
    (later : Skips .value enclosing (skipSpace s) seek' enclosing' rest) :
    Skips .value enclosing s seek' enclosing' rest := by
  refine .looking (length_skipSpace s) (fun b bound => ?_) later
  simp only [skipFrom, skipSpace_skipSpace, reduceCtorEq, false_and, ↓reduceIte]

/-- What comes first behind an opening bracket, unless it is the closing one, is a value. -/
theorem skips_firstElement {x : Symbol} {seek' : Seek} {enclosing' : Enclosing}
    (visible : skipSpace s = x :: t) (unclosed : x ≠ some ']')
    (later : Skips .value (true :: enclosing) s seek' enclosing' rest) :
    Skips .afterOpen (true :: enclosing) s seek' enclosing' rest := by
  refine .looking (Nat.le_refl _) (fun b bound => ?_) later
  cases x with
  | none => simp only [skipFrom, visible, reduceCtorEq, false_and, ↓reduceIte]
  | some c =>
    have other : c ≠ ']' := fun same => unclosed (congrArg some same)
    simp [skipFrom, visible, Seek.atSymbol, other]

theorem skips_comma (visible : skipSpace s = some ',' :: t) :
    Skips .afterValue (true :: enclosing) s .value (true :: enclosing) t := by
  refine .once visible (Nat.le_refl _) fun b bound => ?_
  simp [skipFrom, visible, Seek.atSymbol]

theorem skips_element {first : Bool} (next : nextElement first s = .ok (true, t))
    {seek' : Seek} {enclosing' : Enclosing}
    (later : Skips .value (true :: enclosing) t seek' enclosing' rest) :
    Skips (Seek.beforeItem first) (true :: enclosing) s seek' enclosing' rest := by
  obtain ⟨u, x, w, comes, visible, unclosed, rfl⟩ := nextElement_true.1 next
  have value : Skips .value (true :: enclosing) u seek' enclosing' rest :=
    skips_space (visible.symm ▸ later)
  cases first with
  | true =>
    obtain rfl : u = s := comes
    exact skips_firstElement visible unclosed value
  | false => exact (skips_comma comes).trans value

theorem skips_firstName (visible : skipSpace s = some c :: t) (unclosed : c ≠ '\x7d')
    (skipped : skipName (some c :: t) = .ok rest) (shorter : rest.length ≤ t.length) :
    Skips .afterOpen (false :: enclosing) s .value (false :: enclosing) rest := by
  refine .once visible shorter fun b bound => ?_
  simp [skipFrom, visible, Seek.atSymbol, unclosed, skipped]

theorem skips_laterName (visible : skipSpace s = some ',' :: t) (skipped : skipName t = .ok rest)
    (shorter : rest.length ≤ t.length) :
    Skips .afterValue (false :: enclosing) s .value (false :: enclosing) rest := by
  refine .once visible shorter fun b bound => ?_
  simp [skipFrom, visible, Seek.atSymbol, skipped]

theorem skipName_of {name : String} {u : List Symbol} (quote : skipSpace s = some '"' :: t)
    (text : stringToken t = .ok (name, u)) (joined : colon u = .ok rest) :
    skipName s = .ok rest ∧ rest.length ≤ t.length := by
  obtain ⟨taken, whole, -, skipped⟩ := stringToken_extent text
  have shorter := colon_shorter joined
  constructor
  · rw [skipName, quote]
    simp only [↓reduceIte, skipped]
    exact joined
  · rw [whole, List.length_append]
    omega

theorem skips_member {first : Bool} {name : String} (named : nextName first s = .ok (some name, t))
    (joined : colon t = .ok rest) :
    Skips (Seek.beforeItem first) (false :: enclosing) s .value (false :: enclosing) rest := by
  obtain ⟨u, w, comes, quote, text⟩ := nextName_some.1 named
  cases first with
  | true =>
    obtain rfl : u = s := comes
    have again : skipSpace (some '"' :: w) = some '"' :: w := rfl
    obtain ⟨skipped, shorter⟩ := skipName_of again text joined
    exact skips_firstName quote (by decide) skipped shorter
  | false =>
    obtain ⟨skipped, shorter⟩ := skipName_of quote text joined
    have within : w.length < u.length := by
      have less := length_skipSpace u
      rw [quote, List.length_cons] at less
      omega
    exact skips_laterName comes skipped (by omega)

end

section

variable {α : Type} {item : Reader α} {first : Bool} {s rest : List Symbol}

theorem elements_skip {xs : List α}
    (items : ∀ {s x rest}, item s = .ok (x, rest) → Ends rest →
      ∀ enclosing, Skips .value enclosing s .afterValue enclosing rest)
    (read : ElementsRead item first s xs rest) (enclosing : Enclosing) :
    Skips (Seek.beforeItem first) (true :: enclosing) s .afterValue enclosing rest := by
  induction read with
  | closed close => exact skips_close true (Seek.beforeItem_ne_value _) close
  | element next here later ih => exact skips_element next ((items here later.ends _).trans ih)

theorem members_skip {ms : List (String × α)}
    (items : ∀ {s x rest}, item s = .ok (x, rest) → Ends rest →
      ∀ enclosing, Skips .value enclosing s .afterValue enclosing rest)
    (read : MembersRead item first s ms rest) (enclosing : Enclosing) :
    Skips (Seek.beforeItem first) (false :: enclosing) s .afterValue enclosing rest := by
  induction read with
  | closed close => exact skips_close false (Seek.beforeItem_ne_value _) close
  | member named joined here later ih =>
    exact (skips_member named joined).trans ((items here later.ends _).trans ih)

end

/-- Behind a value the reader looks for what follows, with the same containers open. -/
theorem value_skips {depth : Nat} {s rest : List Symbol} {v : Value}
    (read : value depth s = .ok (v, rest)) (enclosing : Enclosing) :
    Skips .value enclosing s .afterValue enclosing rest := by
  have scalar {enclosing : Enclosing} {c : Char} {s t rest : List Symbol} {v : Value}
      (visible : skipSpace s = some c :: t) (read : scalar c t = .ok (v, rest)) :
      Skips .value enclosing s .afterValue enclosing rest := by
    obtain ⟨skipped, taken, rfl, -⟩ := scalar_extent read
    exact skips_scalar visible skipped (by simp)
  induction depth generalizing s v rest enclosing with
  | zero =>
    cases value_read read with
    | scalar visible _ _ read => exact scalar visible read
  | succ depth ih =>
    cases value_read read with
    | scalar visible _ _ read => exact scalar visible read
    | list visible read =>
      exact (skips_open true visible).trans (elements_skip (fun here _ => ih here) read enclosing)
    | object visible read =>
      exact (skips_open false visible).trans (members_skip (fun here _ => ih here) read enclosing)

/-- What comes to the end of a value with nothing open around it is a value. -/
theorem skipValue_of_skips {s rest : List Symbol} (skips : Skips .value [] s .afterValue [] rest) :
    skipValue s = .ok ((), rest) := by
  obtain ⟨bound, enough, same⟩ := skips (none :: s) (Nat.lt_succ_self _)
  cases bound with
  | nil => cases enough
  | cons b bound =>
    rw [skipValue, same, skipFrom_ended]

/-- A value that can be buffered can be skipped, and the same text follows. -/
theorem skipValue_of_value {depth : Nat} {s rest : List Symbol} {v : Value}
    (read : value depth s = .ok (v, rest)) : skipValue s = .ok ((), rest) :=
  skipValue_of_skips (value_skips read [])

end ChannelAgent.Json
