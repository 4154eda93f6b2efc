import ChannelAgent.Proofs.Json.Buffering

set_option autoImplicit false

namespace ChannelAgent.Json

namespace Literal

/-- Neither a fraction nor an exponent is written. -/
def IsInteger (l : Literal) : Prop := l.fraction = none ∧ l.exponent = none

variable {l : Literal}

theorem isInteger_iff : l.IsInteger ↔ ¬ (l.fraction.isSome ∨ l.exponent.isSome) := by
  simp [IsInteger, not_or]

theorem real?_ne {n : Number} (whole : ∀ below x, n ≠ .real below x) : l.real? ≠ some n := by
  intro same
  obtain ⟨x, -, rfl⟩ := Option.map_eq_some_iff.1 same
  exact whole _ _ rfl

theorem number?_natural_iff {n : UInt64} : l.number? = some (.natural n) ↔
    l.IsInteger ∧ l.negative = false ∧ l.natural = n.toNat := by
  have noReal : l.real? ≠ some (.natural n) := real?_ne nofun
  unfold number?
  by_cases integer : l.IsInteger
  · rw [if_neg (isInteger_iff.1 integer)]
    cases sign : l.negative with
    | true =>
      simp only [↓reduceIte, Bool.true_eq_false, false_and, and_false, iff_false]
      split
      · nofun
      · exact noReal
    | false =>
      simp only [Bool.false_eq_true, ↓reduceIte, integer, true_and]
      split
      · rename_i small
        simp only [Option.some.injEq, Number.natural.injEq]
        constructor
        · rintro rfl
          exact (UInt64.toNat_ofNat_of_lt small).symm
        · intro same
          rw [same, UInt64.ofNat_toNat]
      · rename_i large
        simp only [noReal, false_iff]
        intro same
        exact large (same ▸ n.toNat_lt)
  · rw [if_pos (not_not.1 (mt isInteger_iff.2 integer))]
    simp only [noReal, integer, false_and]

theorem number?_negative_iff {n : Nat} : l.number? = some (.negative n) ↔
    l.IsInteger ∧ l.negative = true ∧ l.natural = n ∧ 0 < n ∧ n ≤ 9223372036854775808 := by
  have noReal : l.real? ≠ some (.negative n) := real?_ne nofun
  unfold number?
  by_cases integer : l.IsInteger
  · rw [if_neg (isInteger_iff.1 integer)]
    cases sign : l.negative with
    | true =>
      simp only [↓reduceIte, integer, true_and]
      split
      · rename_i fits
        simp only [Option.some.injEq, Number.negative.injEq]
        constructor
        · rintro rfl
          exact ⟨rfl, fits⟩
        · rintro ⟨rfl, -⟩
          rfl
      · rename_i unfit
        simp only [noReal, false_iff]
        rintro ⟨rfl, fits⟩
        exact unfit fits
    | false =>
      simp only [Bool.false_eq_true, ↓reduceIte, false_and, and_false, iff_false]
      split
      · nofun
      · exact noReal
  · rw [if_pos (not_not.1 (mt isInteger_iff.2 integer))]
    simp only [noReal, integer, false_and]

end Literal

section

variable {negative : Bool} {ended : Fault} {depth : Nat} {c : Char} {s t rest : List Symbol} {n : Number}

theorem literal_negative {l : Literal} (read : literal ended negative s = .ok (l, rest)) :
    l.negative = negative := by
  obtain ⟨⟨whole, afterWhole⟩, -, read⟩ := bind_eq_ok.1 read
  obtain ⟨⟨fraction, afterFraction⟩, -, read⟩ := bind_eq_ok.1 read
  obtain ⟨⟨exponent, afterExponent⟩, -, done⟩ := bind_eq_ok.1 read
  rw [← (Prod.mk.inj (Except.ok.inj done)).1]

/-- A scalar that is a number starts with a sign or a digit. -/
theorem scalar_number (read : scalar c t = .ok (.number n, rest)) :
    (c = '-' ∧ numberToken true t = .ok (n, rest)) ∨
      (('0' ≤ c ∧ c ≤ '9') ∧ numberToken false (some c :: t) = .ok (n, rest)) := by
  have token {sign : Bool} {symbols : List Symbol}
      (read : (numberToken sign symbols).map (fun r => (Value.number r.1, r.2)) =
        .ok (.number n, rest)) : numberToken sign symbols = .ok (n, rest) := by
    obtain ⟨⟨m, r⟩, found, same⟩ := map_eq_ok.1 read
    obtain ⟨number, rfl⟩ := Prod.mk.inj same
    obtain rfl := Value.number.inj number
    exact found
  rcases starts_scalar read with rfl | rfl | rfl | rfl | digit | rfl
  · obtain ⟨r, -, same⟩ := map_eq_ok.1 read
    cases same
  · obtain ⟨r, -, same⟩ := map_eq_ok.1 read
    cases same
  · obtain ⟨r, -, same⟩ := map_eq_ok.1 read
    cases same
  · exact .inl ⟨rfl, token read⟩
  · rw [(scalar_digit digit).1] at read
    exact .inr ⟨digit, token read⟩
  · obtain ⟨r, -, same⟩ := map_eq_ok.1 read
    cases same

theorem value_number_iff : value depth s = .ok (.number n, rest) ↔
    (∃ t, skipSpace s = some '-' :: t ∧ numberToken true t = .ok (n, rest)) ∨
      numberToken false (skipSpace s) = .ok (n, rest) := by
  constructor
  · intro read
    cases value_read read with
    | @scalar _ c _ t _ _ visible _ _ read =>
      rw [visible]
      rcases scalar_number read with ⟨rfl, found⟩ | ⟨-, found⟩
      · exact .inl ⟨t, rfl, found⟩
      · exact .inr found
  · rintro (⟨t, visible, found⟩ | found)
    · rw [value_scalar visible (by decide) (by decide)]
      exact map_eq_ok.2 ⟨_, found, rfl⟩
    · obtain ⟨-, c, taken, visible, first, -⟩ := numberToken_extent found
      cases c with
      | none => cases first
      | some c =>
        have digit : '0' ≤ c ∧ c ≤ '9' := of_decide_eq_true first
        rw [List.cons_append] at visible
        have noList : c ≠ '[' := by
          rintro rfl
          exact absurd digit (by decide)
        have noObject : c ≠ '\x7b' := by
          rintro rfl
          exact absurd digit (by decide)
        rw [visible] at found
        rw [value_scalar visible noList noObject, (scalar_digit digit).1]
        exact map_eq_ok.2 ⟨_, found, rfl⟩

/-- What is buffered as a natural number is an integer literal without a sign. -/
theorem value_natural_iff {n : UInt64} : value depth s = .ok (.number (.natural n), rest) ↔
    ∃ l, literal .truncated false (skipSpace s) = .ok (l, rest) ∧ l.IsInteger ∧
      l.natural = n.toNat := by
  simp only [value_number_iff, numberToken_ok, Literal.number?_natural_iff]
  constructor
  · rintro (⟨t, -, l, read, -, positive, -⟩ | ⟨l, read, integer, -, same⟩)
    · cases (literal_negative read).symm.trans positive
    · exact ⟨l, read, integer, same⟩
  · rintro ⟨l, read, integer, same⟩
    exact .inr ⟨l, read, integer, literal_negative read, same⟩

/-- What is buffered as a negative integer is an integer literal behind a minus sign, other than
zero. -/
theorem value_negative_iff {n : Nat} : value depth s = .ok (.number (.negative n), rest) ↔
    ∃ t l, skipSpace s = some '-' :: t ∧ literal .truncated true t = .ok (l, rest) ∧ l.IsInteger ∧
      l.natural = n ∧ 0 < n ∧ n ≤ 9223372036854775808 := by
  simp only [value_number_iff, numberToken_ok, Literal.number?_negative_iff]
  constructor
  · rintro (⟨t, visible, l, read, integer, -, fits⟩ | ⟨l, read, -, negative, -⟩)
    · exact ⟨t, l, visible, read, integer, fits⟩
    · cases (literal_negative read).symm.trans negative
  · rintro ⟨t, l, visible, read, integer, fits⟩
    exact .inl ⟨t, visible, l, read, integer, literal_negative read, fits⟩

/-- An integer literal of 64 bits stands in front of `rest`. Minus zero is none. -/
inductive Spells (s rest : List Symbol) : Int → Prop
  | natural {l : Literal} (read : literal .truncated false (skipSpace s) = .ok (l, rest))
      (whole : l.IsInteger) (small : l.natural < 18446744073709551616) : Spells s rest l.natural
  | negative {t : List Symbol} {l : Literal} (sign : skipSpace s = some '-' :: t)
      (read : literal .truncated true t = .ok (l, rest)) (whole : l.IsInteger)
      (positive : 0 < l.natural) (small : l.natural ≤ 9223372036854775808) :
      Spells s rest (-(l.natural : Int))

/-- The integer of a value that was written as one. -/
def Value.integer? : Value → Option Int
  | .number (.natural n) => some n.toNat
  | .number (.negative n) => some (-(n : Int))
  | _ => none

theorem integer_iff_spells {v : Value} {i : Int} (read : value depth s = .ok (v, rest)) :
    v.integer? = some i ↔ Spells s rest i := by
  constructor
  · intro integer
    cases v with
    | number n =>
      cases n with
      | natural n =>
        obtain ⟨l, found, whole, same⟩ := value_natural_iff.1 read
        obtain rfl := Option.some.inj integer
        rw [← same]
        exact .natural found whole (same ▸ n.toNat_lt)
      | negative n =>
        obtain ⟨t, l, sign, found, whole, rfl, fits⟩ := value_negative_iff.1 read
        obtain rfl := Option.some.inj integer
        exact .negative sign found whole fits.1 fits.2
      | real below x => cases integer
    | _ => cases integer
  · intro spells
    cases spells with
    | @natural l found whole small =>
      have same : (UInt64.ofNat l.natural).toNat = l.natural := UInt64.toNat_ofNat_of_lt small
      have again : value depth s = .ok (.number (.natural (.ofNat l.natural)), rest) :=
        value_natural_iff.2 ⟨l, found, whole, same.symm⟩
      rw [(Prod.mk.inj (Except.ok.inj (read.symm.trans again))).1, Value.integer?, same]
    | @negative t l sign found whole positive small =>
      have again : value depth s = .ok (.number (.negative l.natural), rest) :=
        value_negative_iff.2 ⟨t, l, sign, found, whole, rfl, positive, small⟩
      rw [(Prod.mk.inj (Except.ok.inj (read.symm.trans again))).1, Value.integer?]

end

section

variable {n : Nat}

theorem isDigit_some {c : Char} (digit : c.isDigit = true) : isDigit (some c) = true := by
  simpa [isDigit, Char.isDigit, Char.le_def] using digit

theorem skipSpace_of_digit {c : Symbol} {s : List Symbol} (digit : isDigit c = true) :
    skipSpace (c :: s) = c :: s := by
  refine skipSpace_cons_of_visible (Bool.eq_false_iff.2 fun space => ?_)
  simp only [isSpace, Bool.or_eq_true, decide_eq_true_eq] at space
  rcases space with ((rfl | rfl) | rfl) | rfl <;> cases digit

theorem head?_toDigits (positive : 0 < n) : (Nat.toDigits 10 n).head? ≠ some '0' := by
  induction n using Nat.strongRecOn with
  | ind n ih =>
    by_cases small : n < 10
    · rw [Nat.toDigits_of_lt_base small]
      intro zero
      exact positive.ne' (Nat.digitChar_eq_zero.1 (Option.some.inj zero))
    · rw [Nat.toDigits_of_base_le (by decide) (Nat.le_of_not_lt small),
        List.head?_append_of_ne_nil _ Nat.toDigits_ne_nil]
      exact ih (n / 10) (by omega) (by omega)

theorem foldl_digitValue {digits : List Char} (all : ∀ c ∈ digits, c.isDigit = true) (start : Nat) :
    ((digits.map some).map digitValue).foldl (fun n d => n * 10 + d) start =
      Nat.ofDigitChars 10 digits start := by
  induction digits generalizing start with
  | nil => rfl
  | cons c digits ih =>
    obtain ⟨digit, others⟩ := List.forall_mem_cons.1 all
    have value : digitValue (some c) = c.toNat - 48 := if_pos (of_decide_eq_true (isDigit_some digit))
    simp only [List.map_cons, List.foldl_cons, value, Nat.ofDigitChars_cons]
    rw [ih others, Nat.mul_comm]
    rfl

theorem isDigit_of_mem_writeNat {c : Char} (found : c ∈ writeNat n) : c.isDigit = true :=
  Nat.isDigit_of_mem_toDigits (by decide) (by decide) found

/-- The digits of a number are read to their end. They start with a zero only if there is no
other. -/
theorem wholePart_writeNat (n : Nat) :
    wholePart .truncated ((writeNat n).map some) =
      .ok (((writeNat n).map some).map digitValue, []) := by
  have digits : ∀ x ∈ (writeNat n).map some, isDigit x = true :=
    List.forall_mem_map.2 fun c found => isDigit_some (isDigit_of_mem_writeNat found)
  have taken : someDigits .truncated ((writeNat n).map some) =
      .ok (((writeNat n).map some).map digitValue, []) := by
    cases written : writeNat n with
    | nil => exact absurd written Nat.toDigits_ne_nil
    | cons c more =>
      rw [written, List.map_cons] at digits
      rw [List.map_cons, someDigits, if_pos (digits _ (List.mem_cons_self ..)), takeDigits,
        List.takeWhile_eq_self_iff.2 digits, List.dropWhile_eq_nil_iff.2 digits]
  have noZero : ¬ ((((writeNat n).map some).map digitValue).length ≠ 1 ∧
      (((writeNat n).map some).map digitValue).head? = some 0) := by
    rintro ⟨several, zero⟩
    rw [List.head?_map, List.head?_map, Option.map_map] at zero
    obtain ⟨c, first, value⟩ := Option.map_eq_some_iff.1 zero
    have digit := of_decide_eq_true
      (isDigit_some (isDigit_of_mem_writeNat (List.mem_of_head? first)))
    rw [Function.comp_apply, digitValue, if_pos digit] at value
    have least : 48 ≤ c.toNat := digit.1
    obtain rfl : c = '0' := Char.toNat_inj.1 (by change c.toNat = 48; omega)
    rcases Nat.eq_zero_or_pos n with rfl | positive
    · exact several rfl
    · exact head?_toDigits positive first
  exact bind_eq_ok.2 ⟨_, taken, if_neg noZero⟩

theorem literal_writeNat (negative : Bool) (n : Nat) : ∃ l : Literal, l.IsInteger ∧ l.natural = n ∧
    ∀ rest, Ends rest →
      literal .truncated negative ((writeNat n).map some ++ rest) = .ok (l, rest) := by
  let l : Literal := ⟨negative, ((writeNat n).map some).map digitValue, none, none⟩
  have read : literal .truncated negative ((writeNat n).map some) = .ok (l, []) :=
    bind_eq_ok.2 ⟨_, wholePart_writeNat n, rfl⟩
  have same : l.natural = n := by
    rw [Literal.natural, foldl_digitValue fun c found => isDigit_of_mem_writeNat found]
    exact Nat.ofDigitChars_ten_toDigits
  obtain ⟨-, c, taken, whole, -, again⟩ := literal_extent read
  rw [List.append_nil] at whole
  exact ⟨l, ⟨rfl, rfl⟩, same, fun rest ends => whole ▸ again rest ends⟩

theorem skipSpace_writeNat (n : Nat) (rest : List Symbol) :
    skipSpace ((writeNat n).map some ++ rest) = (writeNat n).map some ++ rest := by
  cases written : writeNat n with
  | nil => exact absurd written Nat.toDigits_ne_nil
  | cons c more =>
    have listed : c ∈ writeNat n := written ▸ List.mem_cons_self
    exact skipSpace_of_digit (isDigit_some (isDigit_of_mem_writeNat listed))

/-- The text of a natural number is read as that number, if it does not go on behind it. -/
theorem takes_writeNat (depth : Nat) (n : UInt64) :
    Takes (value depth) ((writeNat n.toNat).map some) (.number (.natural n)) := by
  obtain ⟨l, integer, same, read⟩ := literal_writeNat false n.toNat
  intro rest ends
  refine value_natural_iff.2 ⟨l, ?_, integer, same⟩
  rw [skipSpace_writeNat]
  exact read rest ends

/-- The text of a negative number is read as that number, if it does not go on behind it. -/
theorem takes_negative (depth : Nat) {n : Nat} (positive : 0 < n) (small : n ≤ 9223372036854775808) :
    Takes (value depth) (('-' :: writeNat n).map some) (.number (.negative n)) := by
  obtain ⟨l, integer, same, read⟩ := literal_writeNat true n
  intro rest ends
  refine value_negative_iff.2 ⟨(writeNat n).map some ++ rest, l, ?_, read rest ends, integer, same,
    positive, small⟩
  exact skipSpace_cons_of_visible (by decide)

end

end ChannelAgent.Json
