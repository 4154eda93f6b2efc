import Mathlib.Data.List.DropRight
import ChannelAgent.Proofs.Backoff

set_option autoImplicit false

namespace ChannelAgent

namespace Duration

theorem toNanos_inj {a b : Duration} : a.toNanos = b.toNanos ↔ a = b := by
  constructor
  · intro same
    have first := a.nanos_bound
    have second := b.nanos_bound
    simp only [toNanos, nanosPerSecond] at same
    have seconds : a.seconds = b.seconds := UInt64.toNat_inj.1 (by omega)
    have nanos : a.nanos = b.nanos := UInt32.toNat_inj.1 (by omega)
    cases a
    cases b
    simp_all
  · intro same
    rw [same]

/-- The nanosecond part times the factor. -/
def partWord (d : Duration) (factor : UInt32) : UInt64 := d.nanos.toUInt64 * factor.toUInt64

/-- The product of the part fits into its word. -/
theorem toNat_partWord (d : Duration) (factor : UInt32) :
    (d.partWord factor).toNat = d.nanos.toNat * factor.toNat := by
  have part := d.nanos_bound
  have most : factor.toNat < 2 ^ 32 := factor.toNat_lt
  have fits : d.nanos.toNat * factor.toNat ≤ 1000000000 * 2 ^ 32 :=
    Nat.mul_le_mul (by omega) (by omega)
  rw [partWord, UInt64.toNat_mul, UInt32.toNat_toUInt64, UInt32.toNat_toUInt64]
  exact Nat.mod_eq_of_lt (by omega)

theorem toNat_partWord_div (d : Duration) (factor : UInt32) :
    (d.partWord factor / 1000000000).toNat = d.nanos.toNat * factor.toNat / 1000000000 := by
  rw [UInt64.toNat_div, toNat_partWord]
  rfl

theorem toNat_partWord_mod (d : Duration) (factor : UInt32) :
    (d.partWord factor % 1000000000).toUInt32.toNat =
      d.nanos.toNat * factor.toNat % 1000000000 := by
  have below : d.nanos.toNat * factor.toNat % 1000000000 < 1000000000 := Nat.mod_lt _ (by decide)
  rw [UInt64.toNat_toUInt32, UInt64.toNat_mod, toNat_partWord]
  exact Nat.mod_eq_of_lt (by show _ % 1000000000 < _; omega)

/-- The product in words. The nanosecond part carries into the seconds, and where the seconds or the
carry overflow it is the longest duration. -/
def mulWords (d : Duration) (factor : UInt32) : Duration :=
  let carry := d.partWord factor / 1000000000
  let whole := d.seconds * factor.toUInt64
  if BitVec.umulOverflow d.seconds.toBitVec factor.toUInt64.toBitVec ||
      BitVec.uaddOverflow whole.toBitVec carry.toBitVec then longest
  else ⟨whole + carry, (d.partWord factor % 1000000000).toUInt32, by
    rw [toNat_partWord_mod]
    exact Nat.mod_lt _ (by decide)⟩

theorem mulWords_overflow_iff (d : Duration) (factor : UInt32) :
    (BitVec.umulOverflow d.seconds.toBitVec factor.toUInt64.toBitVec ||
        BitVec.uaddOverflow (d.seconds * factor.toUInt64).toBitVec
          (d.partWord factor / 1000000000).toBitVec) = true ↔
      ¬ d.seconds.toNat * factor.toNat + d.nanos.toNat * factor.toNat / 1000000000 <
        18446744073709551616 := by
  have carry := d.toNat_partWord_div factor
  have whole : (d.seconds * factor.toUInt64).toNat =
      d.seconds.toNat * factor.toNat % 18446744073709551616 := UInt64.toNat_mul _ _
  simp only [BitVec.umulOverflow, BitVec.uaddOverflow, UInt64.toNat_toBitVec, carry, whole,
    UInt32.toNat_toUInt64, Bool.or_eq_true, decide_eq_true_eq]
  omega

theorem saturatingMul_eq_mulWords (d : Duration) (factor : UInt32) :
    d.saturatingMul factor = d.mulWords factor := by
  have overflow := d.mulWords_overflow_iff factor
  unfold saturatingMul mulWords
  simp only [nanosPerSecond]
  by_cases fits : d.seconds.toNat * factor.toNat + d.nanos.toNat * factor.toNat / 1000000000 <
      18446744073709551616
  · rw [if_pos fits, if_neg (fun exceeds => overflow.1 exceeds fits)]
    have small : d.nanos.toNat * factor.toNat % 1000000000 < 4294967296 := by omega
    have seconds : d.seconds.toNat * factor.toNat < 18446744073709551616 := by omega
    simp only [Duration.mk.injEq, ← UInt64.toNat_inj, ← UInt32.toNat_inj, toNat_partWord_mod,
      UInt64.toNat_add, UInt64.toNat_mul, toNat_partWord_div, UInt32.toNat_toUInt64,
      UInt64.toNat_ofNat', UInt32.toNat_ofNat', Nat.mod_eq_of_lt seconds, Nat.mod_eq_of_lt small,
      and_self]
  · rw [if_neg fits, if_pos (overflow.2 fits)]

end Duration

namespace Backoff

/-- How often the policy was advanced since its latest reset, or since it was made. -/
def sinceReset (moves : List Move) : Nat := (moves.rtakeWhile (· = .advance)).length

theorem sinceReset_advance (moves : List Move) :
    sinceReset (moves ++ [.advance]) = sinceReset moves + 1 := by
  rw [sinceReset, List.rtakeWhile_concat_pos _ _ _ (by decide), List.length_append]
  rfl

theorem sinceReset_reset (moves : List Move) : sinceReset (moves ++ [.reset]) = 0 := by
  rw [sinceReset, List.rtakeWhile_concat_neg _ _ _ (by decide)]
  rfl

theorem sinceReset_replicate (moves : List Move) (j : Nat) :
    sinceReset (moves ++ List.replicate j .advance) = sinceReset moves + j := by
  induction j with
  | zero => rw [List.replicate_zero, List.append_nil, Nat.add_zero]
  | succ j ih => rw [List.replicate_succ', ← List.append_assoc, sinceReset_advance, ih, Nat.add_assoc]

/-- What stands after the latest reset is a row of advances. -/
theorem moves_since_reset (moves : List Move) :
    moves = List.replicate (sinceReset moves) .advance ∨
      ∃ front, moves = front ++ .reset :: List.replicate (sinceReset moves) .advance := by
  induction moves using List.reverseRecOn with
  | nil => exact .inl rfl
  | append_singleton moves m ih =>
    cases m with
    | reset =>
      right
      exact ⟨moves, by rw [sinceReset_reset, List.replicate_zero]⟩
    | advance =>
      rw [sinceReset_advance, List.replicate_succ']
      rcases ih with row | ⟨front, row⟩
      · left
        exact congrArg (· ++ [.advance]) row
      · right
        refine ⟨front, ?_⟩
        have longer := congrArg (· ++ [Move.advance]) row
        simpa only [List.append_assoc, List.cons_append] using longer

/-- The interval of a new policy in nanoseconds, when it was advanced so many times in a row. -/
def closedForm (initial : Duration) (multiplier : UInt32) (maximum : Duration) (k : Nat) : Nat :=
  min (min initial.toNanos maximum.toNanos * multiplier.toNat ^ k) maximum.toNanos

section

variable {initial : Duration} {multiplier : UInt32} {maximum : Duration}

theorem closedForm_le (k : Nat) : closedForm initial multiplier maximum k ≤ maximum.toNanos :=
  Nat.min_le_right _ _

theorem closedForm_mono (grows : 1 ≤ multiplier.toNat) {k n : Nat} (later : k ≤ n) :
    closedForm initial multiplier maximum k ≤ closedForm initial multiplier maximum n := by
  have power : multiplier.toNat ^ k ≤ multiplier.toNat ^ n := Nat.pow_le_pow_right grows later
  have product := Nat.mul_le_mul_left (min initial.toNanos maximum.toNanos) power
  simp only [closedForm]
  omega

theorem toNanos_after_new (moves : List Move) :
    ((new initial multiplier maximum).after moves).current.toNanos =
      closedForm initial multiplier maximum (sinceReset moves) := by
  rcases moves_since_reset moves with row | ⟨front, row⟩
  · conv => lhs; rw [row]
    exact toNanos_interval_new initial multiplier maximum (sinceReset moves)
  · conv => lhs; rw [row, after_append]
    have follows : ((new initial multiplier maximum).after front).Follows initial multiplier maximum :=
      follows_new.after front
    exact follows.toNanos_reset_advances (sinceReset moves)

end

/-- After any calls on a new policy the interval is the initial one, lowered to the maximum, times
the multiplier to the number of delays handed out since the latest reset, and capped at the maximum.
A call hands out the interval before it and advances the policy once. So no delay exceeds the
maximum, and unless the multiplier is zero the delays between two resets do not decrease and stay at
the maximum once they have reached it. The products are exact up to the longest duration, as they
are in words. -/
theorem interval_in_closed_form (initial maximum : Duration) (multiplier : UInt32)
    (moves : List Move) :
    let policy := new initial multiplier maximum
    let b := policy.after moves
    b.current.toNanos =
        min (min initial.toNanos maximum.toNanos * multiplier.toNat ^ sinceReset moves)
          maximum.toNanos ∧
      b.next = (b.current, policy.after (moves ++ [.advance])) ∧
      b.reset = policy.after (moves ++ [.reset]) ∧
      b.next.1.toNanos ≤ maximum.toNanos ∧
      (1 ≤ multiplier.toNat → ∀ j,
        let later := policy.after (moves ++ List.replicate j .advance)
        b.next.1.toNanos ≤ later.next.1.toNanos ∧
          (b.next.1 = maximum → later.next.1 = maximum)) ∧
      ∀ (d : Duration) (factor : UInt32),
        (d.saturatingMul factor).toNanos =
            min (d.toNanos * factor.toNat) 18446744073709551615999999999 ∧
          d.saturatingMul factor = d.mulWords factor ∧
          (d.partWord factor).toNat = d.nanos.toNat * factor.toNat := by
  intro policy b
  have form : b.current.toNanos = closedForm initial multiplier maximum (sinceReset moves) :=
    toNanos_after_new moves
  refine ⟨form, ?_, ?_, ?_, ?_, ?_⟩
  · rw [after_append]
    rfl
  · rw [after_append]
    rfl
  · show b.current.toNanos ≤ maximum.toNanos
    rw [form]
    exact closedForm_le _
  · intro grows j later
    have further : later.current.toNanos =
        closedForm initial multiplier maximum (sinceReset moves + j) := by
      rw [← sinceReset_replicate]
      exact toNanos_after_new _
    have grown : b.current.toNanos ≤ later.current.toNanos := by
      rw [form, further]
      exact closedForm_mono grows (Nat.le_add_right _ j)
    refine ⟨grown, fun reached => ?_⟩
    have capped : later.current.toNanos ≤ maximum.toNanos := by
      rw [further]
      exact closedForm_le _
    have top : b.current = maximum := reached
    rw [top] at grown
    exact Duration.toNanos_inj.1 (Nat.le_antisymm capped grown)
  · intro d factor
    refine ⟨?_, d.saturatingMul_eq_mulWords factor, d.toNat_partWord factor⟩
    rw [Duration.toNanos_saturatingMul, Duration.toNanos_longest]

end Backoff

end ChannelAgent
