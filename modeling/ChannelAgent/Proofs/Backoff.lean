import Mathlib.Algebra.Group.Nat.Defs
import ChannelAgent.Backoff

set_option autoImplicit false

namespace ChannelAgent

namespace Duration

theorem nanos_bound (d : Duration) : d.nanos.toNat < 1000000000 := d.nanos_lt

theorem seconds_bound (d : Duration) : d.seconds.toNat < 18446744073709551616 := d.seconds.toNat_lt

theorem toNanos_longest : longest.toNanos = 18446744073709551615999999999 := by decide

theorem toNanos_le_longest (d : Duration) : d.toNanos ≤ longest.toNanos := by
  have seconds := d.seconds_bound
  have nanos := d.nanos_bound
  rw [toNanos_longest]
  simp only [toNanos, nanosPerSecond]
  omega

theorem le_iff (a b : Duration) : a.le b = true ↔ a.toNanos ≤ b.toNanos := by
  have first := a.nanos_bound
  have second := b.nanos_bound
  simp only [le, toNanos, nanosPerSecond, Bool.or_eq_true, Bool.and_eq_true, decide_eq_true_eq,
    beq_iff_eq, UInt64.lt_iff_toNat_lt, UInt32.le_iff_toNat_le, ← UInt64.toNat_inj]
  omega

@[simp] theorem toNanos_min (a b : Duration) : (a.min b).toNanos = Min.min a.toNanos b.toNanos := by
  by_cases shorter : a.le b = true
  · rw [Duration.min, if_pos shorter, Nat.min_eq_left ((le_iff a b).1 shorter)]
  · have longer := mt (le_iff a b).2 shorter
    rw [Duration.min, if_neg shorter, Nat.min_eq_right (by omega)]

theorem toNanos_min_le (a b : Duration) : (a.min b).toNanos ≤ b.toNanos := by
  rw [toNanos_min]
  exact Nat.min_le_right _ _

/-- The product is exact, or the longest duration where it does not fit. -/
theorem toNanos_saturatingMul (d : Duration) (k : UInt32) :
    (d.saturatingMul k).toNanos = Min.min (d.toNanos * k.toNat) longest.toNanos := by
  have product : d.toNanos * k.toNat =
      d.seconds.toNat * k.toNat * 1000000000 + d.nanos.toNat * k.toNat := by
    simp only [toNanos, nanosPerSecond, Nat.add_mul]
    rw [Nat.mul_right_comm]
  rw [product, toNanos_longest]
  unfold saturatingMul
  simp only [nanosPerSecond]
  split
  · rename_i fits
    have small : d.nanos.toNat * k.toNat % 1000000000 < 4294967296 := by omega
    simp only [toNanos, nanosPerSecond, UInt64.toNat_ofNat', UInt32.toNat_ofNat',
      Nat.mod_eq_of_lt fits, Nat.mod_eq_of_lt small]
    omega
  · rw [toNanos_longest]
    omega

theorem toNanos_ofNanos (n : Nat) : (ofNanos n).toNanos = Min.min n longest.toNanos := by
  rw [toNanos_longest]
  unfold ofNanos
  simp only [nanosPerSecond]
  split
  · rename_i fits
    have small : n % 1000000000 < 4294967296 := by omega
    simp only [toNanos, nanosPerSecond, UInt64.toNat_ofNat', UInt32.toNat_ofNat',
      Nat.mod_eq_of_lt fits, Nat.mod_eq_of_lt small]
    omega
  · rw [toNanos_longest]
    omega

/-- A pause takes some time, unless it is empty. -/
theorem pauseMillis_pos {d : Duration} (some_time : 0 < d.toNanos) : 0 < d.pauseMillis := by
  unfold pauseMillis ceilMillis
  split <;> omega

/-- The clock counts whole milliseconds, and seconds in 63 bits. -/
def Representable (d : Duration) : Prop := d.toNanos % 1000000 = 0 ∧ d.seconds < 9223372036854775808

instance (d : Duration) : Decidable d.Representable := inferInstanceAs (Decidable (_ ∧ _))

/-- A pause within the reach of the clock is rounded up to whole milliseconds. -/
theorem pauseMillis_rounds_up {d : Duration} (short : d.seconds < 9223372036854775808) :
    d.toNanos ≤ d.pauseMillis * 1000000 ∧ d.pauseMillis * 1000000 < d.toNanos + 1000000 := by
  rw [pauseMillis, if_pos short, ceilMillis]
  omega

theorem pauseMillis_of_representable {d : Duration} (fits : d.Representable) :
    d.pauseMillis * 1000000 = d.toNanos := by
  obtain ⟨whole, short⟩ := fits
  have rounded := pauseMillis_rounds_up short
  omega

end Duration

namespace Backoff

inductive Move
  | advance
  | reset
  deriving DecidableEq, Repr

def move (b : Backoff) : Move → Backoff
  | .advance => b.next.2
  | .reset => b.reset

def after (b : Backoff) (moves : List Move) : Backoff := moves.foldl move b

@[simp] theorem after_nil (b : Backoff) : b.after [] = b := rfl

@[simp] theorem after_append (b : Backoff) (first second : List Move) :
    b.after (first ++ second) = (b.after first).after second :=
  List.foldl_append

@[simp] theorem after_cons (b : Backoff) (m : Move) (moves : List Move) :
    b.after (m :: moves) = (b.move m).after moves := rfl

/-- The delay after `n` others, when nothing resets the policy. -/
def interval (b : Backoff) (n : Nat) : Duration := (b.after (List.replicate n .advance)).current

/-- A policy that never gets to an empty delay. -/
def Lasting (b : Backoff) : Prop := ∀ n, 0 < (b.interval n).toNanos

theorem Lasting.next {b : Backoff} (lasting : b.Lasting) : b.next.2.Lasting := fun n => lasting (n + 1)

/-- A policy made from the given parameters, at whatever interval it has come to. -/
structure Follows (b : Backoff) (initial : Duration) (multiplier : UInt32) (maximum : Duration) :
    Prop where
  first : b.initial = initial.min maximum
  factor : b.multiplier = multiplier
  bound : b.maximum = maximum
  capped : b.current.toNanos ≤ maximum.toNanos

section Parameters

variable {initial : Duration} {multiplier : UInt32} {maximum : Duration} {b : Backoff}

theorem follows_new : (new initial multiplier maximum).Follows initial multiplier maximum where
  first := rfl
  factor := rfl
  bound := rfl
  capped := Duration.toNanos_min_le initial maximum

theorem Follows.move (follows : b.Follows initial multiplier maximum) (m : Move) :
    (b.move m).Follows initial multiplier maximum := by
  obtain ⟨first, factor, bound, capped⟩ := follows
  cases m with
  | advance => exact ⟨first, factor, bound, by
      simp only [Backoff.move, next, bound]
      exact Duration.toNanos_min_le _ _⟩
  | reset => exact ⟨first, factor, bound, by
      simp only [Backoff.move, reset, first]
      exact Duration.toNanos_min_le _ _⟩

theorem Follows.after (follows : b.Follows initial multiplier maximum) (moves : List Move) :
    (b.after moves).Follows initial multiplier maximum := by
  induction moves generalizing b with
  | nil => exact follows
  | cons m moves ih => exact ih (follows.move m)

/-- Policies of the same parameters differ in their intervals only. -/
theorem Follows.eq_of_current {c : Backoff} (follows : b.Follows initial multiplier maximum)
    (follows' : c.Follows initial multiplier maximum) (same : b.current = c.current) : b = c := by
  obtain ⟨first, factor, bound, -⟩ := follows
  obtain ⟨first', factor', bound', -⟩ := follows'
  cases b
  cases c
  simp_all

theorem Follows.reset_eq {c : Backoff} (follows : b.Follows initial multiplier maximum)
    (follows' : c.Follows initial multiplier maximum) : b.reset = c.reset :=
  (follows.move .reset).eq_of_current (follows'.move .reset) (follows.first.trans follows'.first.symm)

theorem Follows.toNanos_next (follows : b.Follows initial multiplier maximum) :
    b.next.2.current.toNanos = min (b.current.toNanos * multiplier.toNat) maximum.toNanos := by
  have longest := maximum.toNanos_le_longest
  simp only [next, follows.factor, follows.bound, Duration.toNanos_min,
    Duration.toNanos_saturatingMul]
  omega

/-- Capping at every step is capping once at the end. -/
theorem min_mul_min (x factor bound : Nat) :
    min (min x bound * factor) bound = min (x * factor) bound := by
  cases factor with
  | zero => simp
  | succ k =>
    rcases Nat.le_total x bound with below | above
    · rw [Nat.min_eq_left below]
    · have grown : bound ≤ bound * (k + 1) := Nat.le_mul_of_pos_right bound k.succ_pos
      have larger : bound * (k + 1) ≤ x * (k + 1) := Nat.mul_le_mul_right (k + 1) above
      rw [Nat.min_eq_right above, Nat.min_eq_right grown, Nat.min_eq_right (by omega)]

/-- The interval after some advances in a row. -/
theorem Follows.toNanos_advances (follows : b.Follows initial multiplier maximum) (j : Nat) :
    (b.after (List.replicate j .advance)).current.toNanos =
      min (b.current.toNanos * multiplier.toNat ^ j) maximum.toNanos := by
  induction j with
  | zero =>
    have capped := follows.capped
    simp only [List.replicate_zero, after_nil, Nat.pow_zero, Nat.mul_one]
    omega
  | succ j ih =>
    have later := follows.after (List.replicate j .advance)
    rw [List.replicate_succ', after_append, after_cons, after_nil]
    calc ((b.after (List.replicate j .advance)).move .advance).current.toNanos
        = min ((b.after (List.replicate j .advance)).current.toNanos * multiplier.toNat)
            maximum.toNanos := later.toNanos_next
      _ = min (b.current.toNanos * multiplier.toNat ^ j * multiplier.toNat) maximum.toNanos := by
        rw [ih, min_mul_min]
      _ = min (b.current.toNanos * multiplier.toNat ^ (j + 1)) maximum.toNanos := by
        rw [Nat.pow_succ, Nat.mul_assoc]

theorem toNanos_interval_new (initial : Duration) (multiplier : UInt32) (maximum : Duration)
    (n : Nat) :
    ((new initial multiplier maximum).interval n).toNanos =
      min (min initial.toNanos maximum.toNanos * multiplier.toNat ^ n) maximum.toNanos := by
  rw [interval, follows_new.toNanos_advances, new, Duration.toNanos_min]

theorem lasting_new (starts : 0 < initial.toNanos) (grows : 0 < multiplier.toNat)
    (most : 0 < maximum.toNanos) : (new initial multiplier maximum).Lasting := by
  intro n
  rw [toNanos_interval_new]
  exact Nat.lt_min.2 ⟨Nat.mul_pos (Nat.lt_min.2 ⟨starts, most⟩) (Nat.pow_pos grows), most⟩

theorem lasting_standard : standard.Lasting := lasting_new (by decide) (by decide) (by decide)

/-- The interval after a reset and some advances in a row. -/
theorem Follows.toNanos_reset_advances (follows : b.Follows initial multiplier maximum) (j : Nat) :
    (b.after (.reset :: List.replicate j .advance)).current.toNanos =
      min (min initial.toNanos maximum.toNanos * multiplier.toNat ^ j) maximum.toNanos := by
  rw [after_cons, (follows.move .reset).toNanos_advances]
  simp [Backoff.move, reset, follows.first]

end Parameters

end Backoff

end ChannelAgent
