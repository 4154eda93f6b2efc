import Mathlib
import ChannelAgent.Proofs.Text.Base64

set_option autoImplicit false

namespace ChannelAgent.Base64

def alphabet : List Char :=
  "ABCDEFGHIJKLMNOPQRSTUVWXYZabcdefghijklmnopqrstuvwxyz0123456789+/".toList

/-- Digits and no more than two pads, which fill up the last group of four. The bits of the last
digit that no byte is made of are zero: two of them for each pad. -/
def Canonical (text : List Char) : Prop :=
  ∃ digits pads, text = digits ++ List.replicate pads '=' ∧ pads ≤ 2 ∧ text.length % 4 = 0 ∧
    (∀ c ∈ digits, c ∈ alphabet) ∧ ∀ c ∈ digits.getLast?, 4 ^ pads ∣ alphabet.idxOf c

theorem value_of_mem {c : Char} (listed : c ∈ alphabet) : value? c = some (alphabet.idxOf c) := by
  have all : alphabet.all (fun c => value? c = some (alphabet.idxOf c)) = true := by decide
  exact of_decide_eq_true (List.all_eq_true.1 all c listed)

theorem digit_mem {n : Nat} (small : n < 64) : digit n ∈ alphabet ∧ alphabet.idxOf (digit n) = n := by
  have all : ∀ n < 64, digit n ∈ alphabet ∧ alphabet.idxOf (digit n) = n := by
    decide +kernel
  exact all n small

theorem digit_of_value {c : Char} {n : Nat} (value : value? c = some n) : n < 64 ∧ digit n = c := by
  have ascii : c.toNat < 128 := by
    refine Nat.lt_of_not_le fun wide => ?_
    have above {high : Char} (low : high.toNat < 128) : ¬ c ≤ high := fun within =>
      Nat.not_lt.2 (Nat.le_trans wide within) low
    have upper : ¬ ('A' ≤ c ∧ c ≤ 'Z') := fun range => above (by decide) range.2
    have lower : ¬ ('a' ≤ c ∧ c ≤ 'z') := fun range => above (by decide) range.2
    have decimal : ¬ ('0' ≤ c ∧ c ≤ '9') := fun range => above (by decide) range.2
    have plus : c ≠ '+' := fun same => absurd (same ▸ wide) (by decide)
    have slash : c ≠ '/' := fun same => absurd (same ▸ wide) (by decide)
    rw [value?, if_neg upper, if_neg lower, if_neg decimal, if_neg plus, if_neg slash] at value
    cases value
  have all : ∀ k < 128, ∀ n ∈ value? (Char.ofNat k), n < 64 ∧ digit n = Char.ofNat k := by decide
  have here := all c.toNat ascii n
  rw [Char.ofNat_toNat] at here
  exact here value

theorem toNat_byte {n : Nat} (small : n < 256) : (UInt8.ofNat n).toNat = n :=
  UInt8.toNat_ofNat_of_lt' small

/-- A group of four digits stands for three bytes. -/
theorem group_of_digits {w x y z : Nat} (first : w < 64) (second : x < 64) (third : y < 64)
    (fourth : z < 64) :
    group (UInt8.ofNat (w * 4 + x / 16)) (UInt8.ofNat (x % 16 * 16 + y / 4))
        (UInt8.ofNat (y % 4 * 64 + z)) = [digit w, digit x, digit y, digit z] := by
  have one : (UInt8.ofNat (w * 4 + x / 16)).toNat = w * 4 + x / 16 :=
    toNat_byte (by omega)
  have two : (UInt8.ofNat (x % 16 * 16 + y / 4)).toNat = x % 16 * 16 + y / 4 :=
    toNat_byte (by omega)
  have three : (UInt8.ofNat (y % 4 * 64 + z)).toNat = y % 4 * 64 + z :=
    toNat_byte (by omega)
  have parts : (w * 4 + x / 16) / 4 = w ∧
      (w * 4 + x / 16) % 4 * 16 + (x % 16 * 16 + y / 4) / 16 = x ∧
      (x % 16 * 16 + y / 4) % 16 * 4 + (y % 4 * 64 + z) / 64 = y ∧ (y % 4 * 64 + z) % 64 = z := by
    omega
  obtain ⟨w', x', y', z'⟩ := parts
  rw [group, one, two, three, w', x', y', z']

theorem encode_pair {w x y : Nat} (first : w < 64) (second : x < 64) (third : y < 64)
    (clear : y % 4 = 0) :
    encode [UInt8.ofNat (w * 4 + x / 16), UInt8.ofNat (x % 16 * 16 + y / 4)] =
      [digit w, digit x, digit y, '='] := by
  have one : (UInt8.ofNat (w * 4 + x / 16)).toNat = w * 4 + x / 16 :=
    toNat_byte (by omega)
  have two : (UInt8.ofNat (x % 16 * 16 + y / 4)).toNat = x % 16 * 16 + y / 4 :=
    toNat_byte (by omega)
  have parts : (w * 4 + x / 16) / 4 = w ∧
      (w * 4 + x / 16) % 4 * 16 + (x % 16 * 16 + y / 4) / 16 = x ∧
      (x % 16 * 16 + y / 4) % 16 * 4 = y := by omega
  obtain ⟨w', x', y'⟩ := parts
  simp only [encode, write, one, two, w', x', y', List.reverse_cons, List.reverse_nil,
    List.nil_append, List.cons_append]

theorem encode_single {w x : Nat} (first : w < 64) (second : x < 64) (clear : x % 16 = 0) :
    encode [UInt8.ofNat (w * 4 + x / 16)] = [digit w, digit x, '=', '='] := by
  have one : (UInt8.ofNat (w * 4 + x / 16)).toNat = w * 4 + x / 16 :=
    toNat_byte (by omega)
  have parts : (w * 4 + x / 16) / 4 = w ∧ (w * 4 + x / 16) % 4 * 16 = x := by omega
  obtain ⟨w', x'⟩ := parts
  simp only [encode, write, one, w', x', List.reverse_cons, List.reverse_nil, List.nil_append,
    List.cons_append]

theorem encode_read {acc bytes : List UInt8} {text : List Char} (done : read acc text = some bytes) :
    ∃ more, bytes = acc.reverse ++ more ∧ encode more = text := by
  fun_induction read acc text with
  | case1 acc => exact ⟨[], by simpa using done.symm, rfl⟩
  | case2 acc p q r s rest w x y z hs hr hq hp ih =>
    obtain ⟨more, rfl, same⟩ := ih done
    obtain ⟨w_lt, rfl⟩ := digit_of_value hp
    obtain ⟨x_lt, rfl⟩ := digit_of_value hq
    obtain ⟨y_lt, rfl⟩ := digit_of_value hr
    obtain ⟨z_lt, rfl⟩ := digit_of_value hs
    refine ⟨UInt8.ofNat (w * 4 + x / 16) :: UInt8.ofNat (x % 16 * 16 + y / 4) ::
      UInt8.ofNat (y % 4 * 64 + z) :: more, ?_, ?_⟩
    · simp only [List.reverse_cons, List.append_assoc, List.cons_append, List.nil_append]
    rw [encode_cons, group_of_digits w_lt x_lt y_lt z_lt, same]
    rfl
  | case3 acc p q r s rest w x y hs hr hq hp last =>
    obtain ⟨rfl, rfl, clear⟩ := last
    obtain ⟨w_lt, rfl⟩ := digit_of_value hp
    obtain ⟨x_lt, rfl⟩ := digit_of_value hq
    obtain ⟨y_lt, rfl⟩ := digit_of_value hr
    obtain rfl := Option.some.inj done
    exact ⟨_, by simp, encode_pair w_lt x_lt y_lt clear⟩
  | case4 => cases done
  | case5 acc p q r s rest w x hs hr hq hp last =>
    obtain ⟨rfl, rfl, rfl, clear⟩ := last
    obtain ⟨w_lt, rfl⟩ := digit_of_value hp
    obtain ⟨x_lt, rfl⟩ := digit_of_value hq
    obtain rfl := Option.some.inj done
    exact ⟨_, by simp, encode_single w_lt x_lt clear⟩
  | case6 => cases done
  | case7 => cases done
  | case8 => cases done

/-- What is read is written again as it was. -/
theorem encode_decode {text : List Char} {bytes : List UInt8} (done : decode? text = some bytes) :
    encode bytes = text := by
  obtain ⟨more, rfl, same⟩ := encode_read done
  exact same

/-- So no two texts stand for the same bytes. -/
theorem decode_injective {text text' : List Char} {bytes : List UInt8}
    (done : decode? text = some bytes) (done' : decode? text' = some bytes) : text = text' :=
  (encode_decode done).symm.trans (encode_decode done')

theorem canonical_group {a b c : UInt8} {text : List Char} (canonical : Canonical text) :
    Canonical (group a b c ++ text) := by
  obtain ⟨digits, pads, rfl, few, whole, listed, clear⟩ := canonical
  have first := a.toNat_lt
  have second := b.toNat_lt
  have third := c.toNat_lt
  refine ⟨group a b c ++ digits, pads, (List.append_assoc ..).symm, few, ?_, ?_, ?_⟩
  · rw [List.length_append, group, List.length_cons, List.length_cons, List.length_cons,
      List.length_cons, List.length_nil]
    omega
  · refine List.forall_mem_append.2 ⟨?_, listed⟩
    simp only [group, List.forall_mem_cons]
    exact ⟨(digit_mem (by omega)).1, (digit_mem (by omega)).1, (digit_mem (by omega)).1,
      (digit_mem (by omega)).1, List.forall_mem_nil _⟩
  · cases digits with
    | nil =>
      -- a last group without a pad uses all its bits
      obtain rfl : pads = 0 := by
        rw [List.nil_append, List.length_replicate] at whole
        omega
      exact fun _ _ => Nat.one_dvd _
    | cons d digits =>
      intro x last
      rw [List.getLast?_append, List.getLast?_cons, Option.some_or] at last
      exact clear x (List.getLast?_cons.trans last)

theorem canonical_encode (bytes : List UInt8) : Canonical (encode bytes) := by
  match bytes with
  | [] => exact ⟨[], 0, rfl, Nat.zero_le _, rfl, nofun, nofun⟩
  | [a] =>
    have bound := a.toNat_lt
    obtain ⟨listed, -⟩ := digit_mem (n := a.toNat / 4) (by omega)
    obtain ⟨listed', low⟩ := digit_mem (n := a.toNat % 4 * 16) (by omega)
    refine ⟨[digit (a.toNat / 4), digit (a.toNat % 4 * 16)], 2, rfl, Nat.le_refl _, ?_, ?_, ?_⟩
    · simp [encode, write]
    · exact List.forall_mem_cons.2 ⟨listed, List.forall_mem_singleton.2 listed'⟩
    · intro c last
      obtain rfl : digit (a.toNat % 4 * 16) = c := Option.some.inj last
      rw [low]
      exact Nat.dvd_mul_left 16 _
  | [a, b] =>
    have first := a.toNat_lt
    have second := b.toNat_lt
    obtain ⟨listed, -⟩ := digit_mem (n := a.toNat / 4) (by omega)
    obtain ⟨listed', -⟩ := digit_mem (n := a.toNat % 4 * 16 + b.toNat / 16) (by omega)
    obtain ⟨listed'', low⟩ := digit_mem (n := b.toNat % 16 * 4) (by omega)
    refine ⟨[digit (a.toNat / 4), digit (a.toNat % 4 * 16 + b.toNat / 16),
      digit (b.toNat % 16 * 4)], 1, rfl, by omega, ?_, ?_, ?_⟩
    · simp [encode, write]
    · exact List.forall_mem_cons.2
        ⟨listed, List.forall_mem_cons.2 ⟨listed', List.forall_mem_singleton.2 listed''⟩⟩
    · intro c last
      obtain rfl : digit (b.toNat % 16 * 4) = c := Option.some.inj last
      rw [low]
      exact Nat.dvd_mul_left 4 _
  | a :: b :: c :: rest =>
    rw [encode_cons]
    exact canonical_group (canonical_encode rest)
termination_by bytes.length

theorem read_canonical {digits : List Char} {pads : Nat} (few : pads ≤ 2)
    (whole : (digits.length + pads) % 4 = 0) (listed : ∀ c ∈ digits, c ∈ alphabet)
    (clear : ∀ c ∈ digits.getLast?, 4 ^ pads ∣ alphabet.idxOf c) (acc : List UInt8) :
    (read acc (digits ++ List.replicate pads '=')).isSome = true := by
  match digits with
  | [] =>
    obtain rfl : pads = 0 := by
      rw [List.length_nil] at whole
      omega
    rfl
  | [p] =>
    rw [List.length_singleton] at whole
    omega
  | [p, q] =>
    obtain rfl : pads = 2 := by
      simp only [List.length_cons, List.length_nil] at whole
      omega
    obtain ⟨first, second, -⟩ := List.forall_mem_cons.1 listed |>.imp_right List.forall_mem_cons.1
    have zero : alphabet.idxOf q % 16 = 0 := Nat.mod_eq_zero_of_dvd (clear q rfl)
    simp [read, value_of_mem first, value_of_mem second, value_pad, zero, List.replicate]
  | [p, q, r] =>
    obtain rfl : pads = 1 := by
      simp only [List.length_cons, List.length_nil] at whole
      omega
    simp only [List.forall_mem_cons] at listed
    obtain ⟨first, second, third, -⟩ := listed
    have zero : alphabet.idxOf r % 4 = 0 := Nat.mod_eq_zero_of_dvd (clear r rfl)
    simp [read, value_of_mem first, value_of_mem second, value_of_mem third, value_pad, zero,
      List.replicate]
  | p :: q :: r :: s :: digits =>
    simp only [List.forall_mem_cons] at listed
    obtain ⟨first, second, third, fourth, later⟩ := listed
    have rest (acc : List UInt8) :
        (read acc (digits ++ List.replicate pads '=')).isSome = true := by
      refine read_canonical few ?_ later (fun c last => clear c ?_) acc
      · simp only [List.length_cons] at whole
        omega
      · simp only [List.getLast?_cons, Option.mem_def] at last ⊢
        simp [last]
    simp only [List.cons_append, read, value_of_mem first, value_of_mem second, value_of_mem third,
      value_of_mem fourth]
    exact rest _
termination_by digits.length

/-- Base64 reads the canonical texts and no others. -/
theorem decode_isSome {text : List Char} : (decode? text).isSome = true ↔ Canonical text := by
  constructor
  · intro read
    obtain ⟨bytes, done⟩ := Option.isSome_iff_exists.1 read
    rw [← encode_decode done]
    exact canonical_encode bytes
  · rintro ⟨digits, pads, rfl, few, whole, listed, clear⟩
    rw [List.length_append, List.length_replicate] at whole
    exact read_canonical few whole listed clear []

end ChannelAgent.Base64
