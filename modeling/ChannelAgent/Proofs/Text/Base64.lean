import ChannelAgent.Text.Base64
import ChannelAgent.Json.Printer

set_option autoImplicit false

namespace ChannelAgent.Base64

theorem value_digit {n : Nat} (small : n < 64) : value? (digit n) = some n := by
  have all : ∀ n < 64, value? (digit n) = some n := by decide
  exact all n small

theorem value_pad : value? '=' = none := by decide

def group (a b c : UInt8) : List Char :=
  [digit (a.toNat / 4), digit (a.toNat % 4 * 16 + b.toNat / 16),
    digit (b.toNat % 16 * 4 + c.toNat / 64), digit (c.toNat % 64)]

/-- What was written before stays in front. -/
theorem write_append (acc before : List Char) (bytes : List UInt8) :
    write (acc ++ before) bytes = before.reverse ++ write acc bytes := by
  fun_induction write acc bytes with
  | case1 acc => simp [write]
  | case2 acc a => simp [write]
  | case3 acc a b => simp [write]
  | case4 acc a b c rest ih =>
    rw [write]
    exact ih

theorem encode_cons (a b c : UInt8) (rest : List UInt8) :
    encode (a :: b :: c :: rest) = group a b c ++ encode rest :=
  write_append [] (group a b c).reverse rest

theorem read_group (acc : List UInt8) (a b c : UInt8) (rest : List Char) :
    read acc (group a b c ++ rest) = read (c :: b :: a :: acc) rest := by
  have first := a.toNat_lt
  have second := b.toNat_lt
  have third := c.toNat_lt
  have joined : (a.toNat / 4 * 4 + (a.toNat % 4 * 16 + b.toNat / 16) / 16 = a.toNat) ∧
      (a.toNat % 4 * 16 + b.toNat / 16) % 16 * 16 + (b.toNat % 16 * 4 + c.toNat / 64) / 4 =
        b.toNat ∧
      (b.toNat % 16 * 4 + c.toNat / 64) % 4 * 64 + c.toNat % 64 = c.toNat := by omega
  obtain ⟨one, two, three⟩ := joined
  simp only [group, List.cons_append, List.nil_append, read]
  rw [value_digit (by omega), value_digit (by omega), value_digit (by omega),
    value_digit (by omega)]
  simp only [one, two, three, UInt8.ofNat_toNat]

theorem read_encode (acc bytes : List UInt8) :
    read acc (encode bytes) = some (acc.reverse ++ bytes) := by
  match bytes with
  | [] => simp [encode, write, read]
  | [a] =>
    have bound := a.toNat_lt
    have whole : a.toNat / 4 * 4 + a.toNat % 4 * 16 / 16 = a.toNat := by omega
    have clear : a.toNat % 4 * 16 % 16 = 0 := by omega
    simp only [encode, write, List.reverse_cons, List.reverse_nil, List.nil_append,
      List.cons_append, read]
    rw [value_digit (by omega), value_digit (by omega), value_pad]
    simp only [whole, clear, UInt8.ofNat_toNat, and_self, ↓reduceIte]
  | [a, b] =>
    have first := a.toNat_lt
    have second := b.toNat_lt
    have joined : (a.toNat / 4 * 4 + (a.toNat % 4 * 16 + b.toNat / 16) / 16 = a.toNat) ∧
        (a.toNat % 4 * 16 + b.toNat / 16) % 16 * 16 + b.toNat % 16 * 4 / 4 = b.toNat ∧
        b.toNat % 16 * 4 % 4 = 0 := by omega
    obtain ⟨one, two, clear⟩ := joined
    simp only [encode, write, List.reverse_cons, List.reverse_nil, List.nil_append,
      List.cons_append, read]
    rw [value_digit (by omega), value_digit (by omega), value_digit (by omega), value_pad]
    simp only [one, two, clear, UInt8.ofNat_toNat, and_self, ↓reduceIte, List.append_assoc,
      List.cons_append, List.nil_append]
  | a :: b :: c :: rest =>
    rw [encode_cons, read_group, read_encode]
    simp
termination_by bytes.length

/-- What is written is read back. -/
theorem decode_encode (bytes : List UInt8) : decode? (encode bytes) = some bytes :=
  read_encode [] bytes

theorem mem_encode {x : Char} {bytes : List UInt8} (found : x ∈ encode bytes) :
    x = '=' ∨ ∃ n < 64, x = digit n := by
  match bytes with
  | [] => cases found
  | [a] =>
    have bound := a.toNat_lt
    have cases : x = digit (a.toNat / 4) ∨ x = digit (a.toNat % 4 * 16) ∨ x = '=' := by
      simpa [encode, write] using found
    rcases cases with rfl | rfl | rfl
    · exact .inr ⟨_, by omega, rfl⟩
    · exact .inr ⟨_, by omega, rfl⟩
    · exact .inl rfl
  | [a, b] =>
    have first := a.toNat_lt
    have second := b.toNat_lt
    have cases : x = digit (a.toNat / 4) ∨ x = digit (a.toNat % 4 * 16 + b.toNat / 16) ∨
        x = digit (b.toNat % 16 * 4) ∨ x = '=' := by
      simpa [encode, write] using found
    rcases cases with rfl | rfl | rfl | rfl
    · exact .inr ⟨_, by omega, rfl⟩
    · exact .inr ⟨_, by omega, rfl⟩
    · exact .inr ⟨_, by omega, rfl⟩
    · exact .inl rfl
  | a :: b :: c :: rest =>
    have first := a.toNat_lt
    have second := b.toNat_lt
    have third := c.toNat_lt
    rw [encode_cons] at found
    rcases List.mem_append.1 found with here | later
    · simp only [group, List.mem_cons, List.not_mem_nil, or_false] at here
      rcases here with rfl | rfl | rfl | rfl <;> exact .inr ⟨_, by omega, rfl⟩
    · exact mem_encode later
termination_by bytes.length

/-- No character of Base64 needs an escape. -/
theorem escape_encode (bytes : List UInt8) :
    (encode bytes).flatMap Json.escapeChar = encode bytes := by
  have plain : ∀ n < 64, Json.escapeChar (digit n) = [digit n] := by decide
  have same : ∀ x ∈ encode bytes, Json.escapeChar x = [x] := by
    intro x found
    rcases mem_encode found with rfl | ⟨n, small, rfl⟩
    · rfl
    · exact plain n small
  rw [List.flatMap_def, List.map_congr_left same, ← List.flatMap_def]
  exact List.flatMap_singleton' _

theorem quote_encode (bytes : List UInt8) :
    '"' :: encode bytes ++ ['"'] = Json.quoteString (String.ofList (encode bytes)) := by
  rw [Json.quoteString, String.toList_ofList, escape_encode]

end ChannelAgent.Base64
