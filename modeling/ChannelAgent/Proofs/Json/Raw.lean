import ChannelAgent.Proofs.Json.Skipping

set_option autoImplicit false

namespace ChannelAgent.Json

section

variable {place : Place} {c : Char} {x : Symbol} {s t rest : List Symbol}

/-- A string that is skipped ends at a quote, or goes on behind a symbol at another place. -/
theorem skipString_cases (read : skipString place (x :: s) = .ok rest) :
    (place = .plain ∧ rest = s ∧ ∀ t, skipString place (x :: t) = .ok t) ∨
      ∃ next : Place, place.owed ≤ next.owed + 1 ∧ skipString next s = .ok rest ∧
        ∀ t, next.owed ≤ t.length → skipString place (x :: t) = skipString next t := by
  cases place with
  | plain =>
    cases x with
    | none => exact .inr ⟨.plain, Nat.zero_le _, read, fun _ _ => rfl⟩
    | some c =>
      simp only [skipString] at read
      split at read
      · rename_i quote
        subst quote
        exact .inl ⟨rfl, (Except.ok.inj read).symm, fun _ => rfl⟩
      · rename_i quote
        split at read
        · rename_i backslash
          subst backslash
          exact .inr ⟨.escape, Nat.zero_le _, read, fun _ _ => rfl⟩
        · rename_i backslash
          split at read
          · cases read
          · rename_i visible
            refine .inr ⟨.plain, Nat.zero_le _, read, fun t _ => ?_⟩
            simp only [skipString, quote, backslash, visible, ↓reduceIte]
  | escape =>
    cases x with
    | none => cases read
    | some c =>
      simp only [skipString] at read
      split at read
      · rename_i unit
        subst unit
        split at read
        · exact .inr ⟨.unit none 3 0, Nat.zero_le _, read, fun t enough => if_pos (hasBytes_of_le enough)⟩
        · cases read
      · rename_i unit
        split at read
        · rename_i escaped
          refine .inr ⟨.plain, Nat.zero_le _, read, fun t _ => ?_⟩
          simp only [skipString, unit, escaped, ↓reduceIte]
        · cases read
  | unit lead? left value =>
    simp only [skipString] at read
    split at read
    · cases read
    · rename_i digit
      cases left with
      | succ left =>
        exact .inr ⟨.unit lead? left 0, Nat.le_refl _, read, fun t _ => if_neg digit⟩
      | zero =>
        exact .inr ⟨.plain, Nat.le_refl _, read, fun t _ => if_neg digit⟩
  | partner lead => cases read
  | partnerEscape lead => cases read

theorem skipString_extent (read : skipString place s = .ok rest) :
    ∃ taken, s = taken ++ rest ∧ place.owed ≤ taken.length ∧
      ∀ more, skipString place (taken ++ more) = .ok more := by
  induction s generalizing place with
  | nil => cases place <;> cases read
  | cons x s ih =>
    rcases skipString_cases read with ⟨rfl, rfl, ends⟩ | ⟨next, owed, read, goesOn⟩
    · exact ⟨[x], rfl, Nat.zero_le _, ends⟩
    · obtain ⟨taken, rfl, enough, again⟩ := ih read
      refine ⟨x :: taken, rfl, ?_, fun more => ?_⟩
      · rw [List.length_cons]
        omega
      · rw [List.cons_append, goesOn]
        · exact again more
        · rw [List.length_append]
          omega

theorem skipNumber_extent (read : skipNumber s = .ok rest) :
    ∃ c taken, s = (c :: taken) ++ rest ∧
      ∀ more, Ends more → skipNumber (c :: taken ++ more) = .ok more := by
  obtain ⟨⟨l, r⟩, found, rfl⟩ := map_eq_ok.1 read
  obtain ⟨-, c, taken, whole, -, takes⟩ := literal_extent found
  exact ⟨c, taken, whole, fun more ends => map_eq_ok.2 ⟨_, takes more ends, rfl⟩⟩

/-- A scalar that is skipped starts with the first character of one of the kinds. -/
theorem skipScalar_extent (read : skipScalar c t = .ok rest) :
    ∃ taken, t = taken ++ rest ∧ ∀ more, Ends more → skipScalar c (taken ++ more) = .ok more := by
  have word {letters : List Char} (read : keyword letters t = .ok rest) :
      ∃ taken, t = taken ++ rest ∧ ∀ more, Ends more → keyword letters (taken ++ more) = .ok more :=
    ⟨_, keyword_extent read, fun more _ => keyword_append letters more⟩
  unfold skipScalar at read ⊢
  by_cases null : c = 'n'
  · simp only [if_pos null] at read ⊢
    exact word read
  simp only [if_neg null] at read ⊢
  by_cases yes : c = 't'
  · simp only [if_pos yes] at read ⊢
    exact word read
  simp only [if_neg yes] at read ⊢
  by_cases no : c = 'f'
  · simp only [if_pos no] at read ⊢
    exact word read
  simp only [if_neg no] at read ⊢
  by_cases sign : c = '-'
  · simp only [if_pos sign] at read ⊢
    obtain ⟨x, taken, whole, again⟩ := skipNumber_extent read
    exact ⟨x :: taken, whole, again⟩
  simp only [if_neg sign] at read ⊢
  by_cases digit : '0' ≤ c ∧ c ≤ '9'
  · simp only [if_pos digit] at read ⊢
    obtain ⟨x, taken, whole, again⟩ := skipNumber_extent read
    obtain ⟨rfl, behind⟩ := List.cons.inj whole
    exact ⟨taken, behind, again⟩
  simp only [if_neg digit] at read ⊢
  by_cases quote : c = '"'
  · simp only [if_pos quote] at read ⊢
    obtain ⟨taken, whole, -, again⟩ := skipString_extent read
    exact ⟨taken, whole, fun more _ => again more⟩
  · simp only [if_neg quote] at read
    cases read

theorem skipName_ok : skipName s = .ok rest ↔
    ∃ t u, skipSpace s = some '"' :: t ∧ skipString .plain t = .ok u ∧ colon u = .ok rest := by
  unfold skipName
  cases visible : skipSpace s with
  | nil => simp
  | cons x t =>
    by_cases quote : x = some '"'
    · cases skipped : skipString .plain t <;> simp [quote, skipped, Except.bind]
    · simp [quote]

theorem skipName_extent (read : skipName s = .ok rest) :
    ∃ taken, s = taken ++ rest ∧ taken ≠ [] ∧ ∀ more, skipName (taken ++ more) = .ok more := by
  obtain ⟨t, u, quote, skipped, joined⟩ := skipName_ok.1 read
  obtain ⟨front, rfl, some, fronts⟩ := skipSpace_taken quote
  obtain ⟨text, rfl, -, texts⟩ := skipString_extent skipped
  obtain ⟨mark, rfl, marks⟩ := colon_extent joined
  refine ⟨front ++ text ++ mark, by simp, by simp [some], fun more => skipName_ok.2 ?_⟩
  refine ⟨text ++ (mark ++ more), mark ++ more, ?_, texts _, marks more⟩
  simpa using fronts (text ++ (mark ++ more))

end

/-- A skipping reader takes some symbols up to the end of its value, whatever stands behind them and
whatever is open around its own containers. -/
structure Passes (seek : Seek) (enclosing : Enclosing) (taken : List Symbol) : Prop where
  nonempty : taken = [] → seek = .afterValue ∧ enclosing = []
  /-- Behind a value nothing comes that could belong to it. -/
  ends : seek = .afterValue → ∀ more, Ends more → Ends (taken ++ more)
  skips : ∀ outer more, Ends more →
    Skips seek (enclosing ++ outer) (taken ++ more) .afterValue outer more

section

variable {seek seek' : Seek} {enclosing enclosing' : Enclosing} {c : Char} {b : Symbol}
  {bound s t rest front taken : List Symbol}

theorem Passes.done : Passes .afterValue [] [] where
  nonempty _ := ⟨rfl, rfl⟩
  ends _ _ ends := ends
  skips _ _ _ := fun bound enough => ⟨bound, enough, rfl⟩

/-- One step, and then the others. -/
theorem Passes.step (some : front ≠ []) (starts : seek = .afterValue → Ends front)
    (here : ∀ outer more, (seek' = .afterValue → Ends more) →
      Skips seek (enclosing ++ outer) (front ++ more) seek' (enclosing' ++ outer) more)
    (later : Passes seek' enclosing' taken) : Passes seek enclosing (front ++ taken) where
  nonempty none := absurd (List.append_eq_nil_iff.1 none).1 some
  ends behind _ _ := by
    rw [List.append_assoc]
    exact (ends_append some).2 (starts behind)
  skips outer more ends := by
    rw [List.append_assoc]
    exact (here outer _ fun behind => later.ends behind more ends).trans (later.skips outer more ends)

/-- The text of a value is skipped as the first element of a list as well. -/
theorem Passes.firstElement (value : Passes .value (true :: enclosing) taken)
    (first : ∀ more, ∃ t, skipSpace (taken ++ more) = some c :: t) (unclosed : c ≠ ']') :
    Passes .afterOpen (true :: enclosing) taken where
  nonempty none := nomatch (value.nonempty none).1
  ends := nofun
  skips outer more ends := by
    obtain ⟨t, visible⟩ := first more
    exact skips_firstElement visible (fun same => unclosed (Option.some.inj same))
      (value.skips outer more ends)

def PassesWithin (bound : List Symbol) (rest : List Symbol) : Prop :=
  ∀ {seek enclosing s}, skipFrom bound seek enclosing s = .ok rest →
    ∃ taken, s = taken ++ rest ∧ Passes seek enclosing taken

theorem passes_value (ih : PassesWithin bound rest) (visible : skipSpace s = some c :: t)
    (read : skipFrom (b :: bound) .value enclosing s = .ok rest) :
    ∃ taken, s = taken ++ rest ∧ Passes .value enclosing taken ∧
      ∀ more, ∃ t, skipSpace (taken ++ more) = some c :: t := by
  obtain ⟨front, rfl, some, fronts⟩ := skipSpace_taken visible
  have opens (isList : Bool) (opening : c = if isList then '[' else '\x7b')
      (read : skipFrom bound .afterOpen (isList :: enclosing) t = .ok rest) :
      ∃ taken, front ++ t = taken ++ rest ∧ Passes .value enclosing taken ∧
        ∀ more, ∃ t, skipSpace (taken ++ more) = Option.some c :: t := by
    obtain ⟨taken, rfl, later⟩ := ih read
    refine ⟨front ++ taken, by simp, .step some (fun behind => absurd behind (by decide))
      (fun outer more _ => ?_) later, fun more => ?_⟩
    · exact skips_open isList (opening ▸ fronts more)
    · exact ⟨_, by rw [List.append_assoc, fronts]⟩
  simp only [skipFrom, visible, Seek.atSymbol, reduceCtorEq, false_and, ↓reduceIte] at read
  split at read
  · rename_i list
    exact opens true list read
  split at read
  · rename_i object
    exact opens false object read
  split at read
  · cases read
  · rename_i u scalar
    obtain ⟨text, rfl, texts⟩ := skipScalar_extent scalar
    obtain ⟨taken, rfl, later⟩ := ih read
    refine ⟨front ++ text ++ taken, by simp, .step (by simp [some]) (fun behind => absurd behind (by decide))
      (fun outer more ends => ?_) later, fun more => ?_⟩
    · rw [List.append_assoc]
      exact skips_scalar (fronts _) (texts more (ends rfl)) (by simp)
    · exact ⟨_, by rw [List.append_assoc, List.append_assoc, fronts]⟩

/-- A closing, a comma or a colon behind a value: a symbol that no value goes on with. -/
theorem ends_of_joint (visible : skipSpace s = some c :: t) (joint : Ends [some c])
    {more : List Symbol} (whole : s = front ++ more) (some : front ≠ []) : Ends front :=
  (ends_append some).1 (whole ▸ ends_of_skipSpace visible joint)

theorem passes_close (ih : PassesWithin bound rest) (isList : Bool) (behind : seek ≠ .value)
    (visible : skipSpace s = some (if isList then ']' else '\x7d') :: t)
    (read : skipFrom bound .afterValue enclosing t = .ok rest) :
    ∃ taken, s = taken ++ rest ∧ Passes seek (isList :: enclosing) taken := by
  have joint : Ends [some (if isList then ']' else '\x7d')] := by
    cases isList <;> decide
  obtain ⟨front, whole, some, fronts⟩ := skipSpace_taken visible
  obtain ⟨taken, rfl, later⟩ := ih read
  refine ⟨front ++ taken, by simp [whole], .step some (fun _ => ends_of_joint visible joint whole some)
    (fun outer more _ => ?_) later⟩
  exact skips_close isList behind (fronts more)

theorem passes_comma (ih : PassesWithin bound rest) (visible : skipSpace s = some ',' :: t)
    (read : skipFrom bound .value (true :: enclosing) t = .ok rest) :
    ∃ taken, s = taken ++ rest ∧ Passes .afterValue (true :: enclosing) taken := by
  obtain ⟨front, whole, some, fronts⟩ := skipSpace_taken visible
  obtain ⟨taken, rfl, later⟩ := ih read
  refine ⟨front ++ taken, by simp [whole], .step some
    (fun _ => ends_of_joint visible (by decide) whole some) (fun outer more _ => ?_) later⟩
  exact skips_comma (fronts more)

theorem passes_firstName {u : List Symbol} (ih : PassesWithin bound rest)
    (visible : skipSpace s = some c :: t) (unclosed : c ≠ '\x7d')
    (named : skipName (some c :: t) = .ok u)
    (read : skipFrom bound .value (false :: enclosing) u = .ok rest) :
    ∃ taken, s = taken ++ rest ∧ Passes .afterOpen (false :: enclosing) taken := by
  obtain ⟨front, rfl, some, fronts⟩ := skipSpace_taken visible
  obtain ⟨name, whole, nonempty, names⟩ := skipName_extent named
  obtain ⟨taken, rfl, later⟩ := ih read
  cases name with
  | nil => exact absurd rfl nonempty
  | cons x text =>
    obtain ⟨rfl, rfl⟩ := List.cons.inj whole
    refine ⟨front ++ text ++ taken, by simp, .step (by simp [some]) (fun behind => absurd behind (by decide))
      (fun outer more _ => ?_) later⟩
    rw [List.append_assoc]
    exact skips_firstName (fronts _) unclosed (names more) (by simp)

theorem passes_laterName {u : List Symbol} (ih : PassesWithin bound rest)
    (visible : skipSpace s = some ',' :: t) (named : skipName t = .ok u)
    (read : skipFrom bound .value (false :: enclosing) u = .ok rest) :
    ∃ taken, s = taken ++ rest ∧ Passes .afterValue (false :: enclosing) taken := by
  obtain ⟨front, whole, some, fronts⟩ := skipSpace_taken visible
  obtain ⟨name, rfl, -, names⟩ := skipName_extent named
  obtain ⟨taken, rfl, later⟩ := ih read
  have starts : Ends (front ++ name) :=
    (ends_append some).2 (ends_of_joint visible (by decide) whole some)
  refine ⟨front ++ name ++ taken, by simp [whole], .step (by simp [some]) (fun _ => starts)
    (fun outer more _ => ?_) later⟩
  rw [List.append_assoc]
  exact skips_laterName (fronts _) (names more) (by simp)

/-- Behind an opening the closing comes, or the first item. -/
theorem passes_opened (ih : PassesWithin bound rest) {isList : Bool} {outer : Enclosing}
    (visible : skipSpace s = some c :: t)
    (read : skipFrom (b :: bound) .afterOpen (isList :: outer) s = .ok rest) :
    ∃ taken, s = taken ++ rest ∧ Passes .afterOpen (isList :: outer) taken := by
  by_cases close : c = if isList then ']' else '\x7d'
  · subst close
    refine passes_close ih isList (by decide) visible ?_
    cases isList <;> simpa [skipFrom, visible, Seek.atSymbol] using read
  · cases isList with
    | true =>
      have first : skipFrom (b :: bound) .value (true :: outer) s = .ok rest := by
        simpa [skipFrom, visible, Seek.atSymbol, show c ≠ ']' from close] using read
      obtain ⟨taken, whole, value, starts⟩ := passes_value ih visible first
      exact ⟨taken, whole, value.firstElement starts close⟩
    | false =>
      have other : c ≠ '\x7d' := close
      simp only [skipFrom, visible, Seek.atSymbol, other, List.head?_cons, Option.some.injEq,
        Bool.false_eq_true, reduceCtorEq, false_and, and_false, ↓reduceIte] at read
      split at read
      · cases read
      · rename_i named
        exact passes_firstName ih visible other named read

/-- Behind a value the closing comes, or a comma and the next item. -/
theorem passes_behind (ih : PassesWithin bound rest) {isList : Bool} {outer : Enclosing}
    (visible : skipSpace s = some c :: t)
    (read : skipFrom (b :: bound) .afterValue (isList :: outer) s = .ok rest) :
    ∃ taken, s = taken ++ rest ∧ Passes .afterValue (isList :: outer) taken := by
  by_cases close : c = if isList then ']' else '\x7d'
  · subst close
    refine passes_close ih isList (by decide) visible ?_
    cases isList <;> simpa [skipFrom, visible, Seek.atSymbol] using read
  · simp only [skipFrom, visible, Seek.atSymbol, close, reduceCtorEq, false_and, and_false,
      ↓reduceIte] at read
    split at read
    · cases read
    · rename_i comma
      obtain rfl := Decidable.not_not.1 comma
      cases isList with
      | true => exact passes_comma ih visible read
      | false =>
        simp only [Bool.false_eq_true, ↓reduceIte] at read
        split at read
        · cases read
        · rename_i named
          exact passes_laterName ih visible named read

theorem passesWithin (bound rest : List Symbol) : PassesWithin bound rest := by
  induction bound with
  | nil => exact fun read => nomatch read
  | cons b bound ih =>
    intro seek enclosing s read
    by_cases ended : seek = .afterValue ∧ enclosing = []
    · obtain ⟨rfl, rfl⟩ := ended
      rw [skipFrom_ended] at read
      exact ⟨[], Except.ok.inj read, .done⟩
    cases visible : skipSpace s with
    | nil =>
      simp only [skipFrom, if_neg ended, visible] at read
      cases read
    | cons x t =>
      cases x with
      | none =>
        simp only [skipFrom, if_neg ended, visible] at read
        cases read
      | some c =>
        cases seek with
        | value =>
          obtain ⟨taken, whole, passes, -⟩ := passes_value ih visible read
          exact ⟨taken, whole, passes⟩
        | afterOpen =>
          cases enclosing with
          | nil =>
            simp [skipFrom, visible, Seek.atSymbol] at read
          | cons isList outer => exact passes_opened ih visible read
        | afterValue =>
          cases enclosing with
          | nil => exact absurd ⟨rfl, rfl⟩ ended
          | cons isList outer => exact passes_behind ih visible read

theorem skipValue_passes (read : skipValue s = .ok ((), rest)) :
    ∃ v, skipSpace s = v ++ rest ∧ Passes .value [] v := by
  have skipped : skipFrom (none :: s) .value [] s = .ok rest := by
    unfold skipValue at read
    split at read
    · cases read
    · rename_i found
      rw [found, (Prod.mk.inj (Except.ok.inj read)).2]
  have same : skipFrom (none :: s) .value [] (skipSpace s) = skipFrom (none :: s) .value [] s := by
    simp only [skipFrom, skipSpace_skipSpace, reduceCtorEq, false_and, ↓reduceIte]
  exact passesWithin _ rest (same.trans skipped)

end

/-- Keeps the text of a value, from its first visible symbol on. -/
def raw : Reader (List Symbol) := fun s =>
  (skipValue s).map fun r => ((skipSpace s).take ((skipSpace s).length - r.2.length), r.2)

/-- The text of a value, with nothing around it. -/
def RawText (v : List Symbol) : Prop := raw v = .ok (v, [])

section

variable {s t v rest : List Symbol}

theorem raw_eq_ok : raw s = .ok (v, rest) ↔ skipSpace s = v ++ rest ∧ skipValue s = .ok ((), rest) := by
  rw [raw, map_eq_ok]
  constructor
  · rintro ⟨⟨⟨⟩, r⟩, skipped, same⟩
    obtain ⟨rfl, rfl⟩ := Prod.mk.inj same
    obtain ⟨w, whole, -⟩ := skipValue_passes skipped
    refine ⟨?_, skipped⟩
    rw [whole, List.length_append, Nat.add_sub_cancel, List.take_left' rfl]
  · rintro ⟨whole, skipped⟩
    refine ⟨((), rest), skipped, ?_⟩
    rw [whole, List.length_append, Nat.add_sub_cancel, List.take_left' rfl]

theorem raw_passes (read : raw s = .ok (v, rest)) : Passes .value [] v := by
  obtain ⟨whole, skipped⟩ := raw_eq_ok.1 read
  obtain ⟨w, same, passes⟩ := skipValue_passes skipped
  obtain rfl := List.append_cancel_right (whole.symm.trans same)
  exact passes

theorem raw_of_passes (passes : Passes .value [] v) (whole : skipSpace s = v ++ rest)
    (ends : Ends rest) : raw s = .ok (v, rest) := by
  refine raw_eq_ok.2 ⟨whole, skipValue_of_skips (skips_space ?_)⟩
  rw [whole]
  exact passes.skips [] rest ends

/-- A value starts with a visible character that closes no list. -/
theorem raw_starts (read : raw s = .ok (v, rest)) :
    ∃ c t, v = some c :: t ∧ isSpace (some c) = false ∧ c ≠ ']' := by
  obtain ⟨whole, skipped⟩ := raw_eq_ok.1 read
  cases v with
  | nil => cases ((raw_passes read).nonempty rfl).1
  | cons x t =>
    have visible := (skipSpace_extent whole).1
    cases x with
    | none =>
      simp [skipValue, skipFrom, whole] at skipped
    | some c =>
      refine ⟨c, t, rfl, visible, ?_⟩
      rintro rfl
      simp [skipValue, skipFrom, whole, Seek.atSymbol, skipScalar] at skipped

/-- The text of a value is kept whatever stands behind it. -/
theorem raw_takes (read : raw s = .ok (v, rest)) : Takes raw v v := by
  intro more ends
  obtain ⟨c, t, rfl, visible, -⟩ := raw_starts read
  exact raw_of_passes (raw_passes read) (skipSpace_cons_of_visible visible) ends

theorem raw_local : Local raw := by
  intro s v rest read
  obtain ⟨c, t, rfl, visible, -⟩ := raw_starts read
  obtain ⟨-, space, rfl, -, skipped⟩ := skipSpace_extent (raw_eq_ok.1 read).1
  refine ⟨space ++ some c :: t, by simp, by simp, fun more ends => ?_⟩
  refine raw_of_passes (raw_passes read) ?_ ends
  rw [List.append_assoc, skipped]
  exact skipSpace_cons_of_visible visible

theorem rawText_of_read (read : raw s = .ok (v, rest)) : RawText v := by
  have alone := raw_takes read [] endsBefore_nil
  rwa [List.append_nil] at alone

theorem RawText.read (text : RawText v) (ends : Ends rest) : raw (v ++ rest) = .ok (v, rest) :=
  raw_takes text rest ends

/-- What is buffered from its first symbol to its last is the text of a value. -/
theorem rawText_of_value {depth : Nat} {x : Value} (read : value depth s = .ok (x, []))
    (visible : skipSpace s = s) : RawText s :=
  raw_eq_ok.2 ⟨by rw [visible, List.append_nil], skipValue_of_value read⟩

/-- A value is skipped with any containers open around it. -/
theorem raw_skips (read : raw s = .ok (v, rest)) (ends : Ends rest) (enclosing : Enclosing) :
    Skips .value enclosing s .afterValue enclosing rest := by
  obtain ⟨whole, -⟩ := raw_eq_ok.1 read
  refine skips_space ?_
  rw [whole]
  exact (raw_passes read).skips enclosing rest ends

end

end ChannelAgent.Json
