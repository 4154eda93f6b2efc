import Mathlib.Tactic.SplitIfs
import ChannelAgent.Text.Utf8

set_option autoImplicit false

namespace ChannelAgent.Utf8

theorem continuation_ofNat {n : Nat} (small : n < 64) :
    continuation? (UInt8.ofNat (n + 128)) = some n := by
  have all : ∀ n < 64, continuation? (UInt8.ofNat (n + 128)) = some n := by decide
  exact all n small

theorem scalar_toNat {least : Nat} {c : Char} (enough : least ≤ c.toNat) :
    scalar? least c.toNat = some c := by
  have valid : c.toNat.isValidChar := c.valid
  rw [scalar?, dif_pos ⟨enough, valid⟩]
  rfl

/-- A lead byte of two, and what it carries. -/
theorem lead_two {n : Nat} (least : 2 ≤ n) (small : n < 32) :
    let a := UInt8.ofNat (n + 192)
    ¬ a < 0x80 ∧ ¬ a < 0xC2 ∧ a < 0xE0 ∧ (a &&& 0x1F).toNat = n := by
  have all : ∀ n < 32, 2 ≤ n → ¬ UInt8.ofNat (n + 192) < 0x80 ∧ ¬ UInt8.ofNat (n + 192) < 0xC2 ∧
      UInt8.ofNat (n + 192) < 0xE0 ∧ (UInt8.ofNat (n + 192) &&& 0x1F).toNat = n := by decide
  exact all n small least

theorem lead_three {n : Nat} (small : n < 16) :
    let a := UInt8.ofNat (n + 224)
    ¬ a < 0x80 ∧ ¬ a < 0xC2 ∧ ¬ a < 0xE0 ∧ a < 0xF0 ∧ (a &&& 0x0F).toNat = n := by
  have all : ∀ n < 16, ¬ UInt8.ofNat (n + 224) < 0x80 ∧ ¬ UInt8.ofNat (n + 224) < 0xC2 ∧
      ¬ UInt8.ofNat (n + 224) < 0xE0 ∧ UInt8.ofNat (n + 224) < 0xF0 ∧
        (UInt8.ofNat (n + 224) &&& 0x0F).toNat = n := by decide
  exact all n small

theorem lead_four {n : Nat} (small : n < 5) :
    let a := UInt8.ofNat (n + 240)
    ¬ a < 0x80 ∧ ¬ a < 0xC2 ∧ ¬ a < 0xE0 ∧ ¬ a < 0xF0 ∧ a < 0xF5 ∧ (a &&& 0x07).toNat = n := by
  have all : ∀ n < 5, ¬ UInt8.ofNat (n + 240) < 0x80 ∧ ¬ UInt8.ofNat (n + 240) < 0xC2 ∧
      ¬ UInt8.ofNat (n + 240) < 0xE0 ∧ ¬ UInt8.ofNat (n + 240) < 0xF0 ∧
        UInt8.ofNat (n + 240) < 0xF5 ∧ (UInt8.ofNat (n + 240) &&& 0x07).toNat = n := by decide
  exact all n small

section

variable {c : Char} (rest : List UInt8)

theorem character_one (small : c.toNat ≤ 127) :
    character? (UInt8.ofNat c.toNat :: rest) = some (c, 0) := by
  have same : (UInt8.ofNat c.toNat).toNat = c.toNat := by
    rw [UInt8.toNat_ofNat']
    omega
  have short : UInt8.ofNat c.toNat < 0x80 := by
    rw [UInt8.lt_iff_toNat_lt, same]
    change c.toNat < 128
    omega
  simp only [character?, short, same, ↓reduceIte, Char.ofNat_toNat]

theorem character_two (large : 127 < c.toNat) (small : c.toNat ≤ 2047) :
    character? (UInt8.ofNat (c.toNat / 64 % 32 + 192) :: UInt8.ofNat (c.toNat % 64 + 128) :: rest) =
      some (c, 1) := by
  have whole : c.toNat / 64 % 32 * 64 + c.toNat % 64 = c.toNat := by omega
  obtain ⟨high, first, top, lead⟩ := lead_two (n := c.toNat / 64 % 32) (by omega) (by omega)
  have final := continuation_ofNat (n := c.toNat % 64) (by omega)
  have scalar : scalar? 0x80 c.toNat = some c := scalar_toNat (by omega)
  simp only [character?, high, first, top, ↓reduceIte, final, lead, whole, scalar,
    Option.bind_eq_bind, Option.bind_some]

theorem character_three (large : 2047 < c.toNat) (small : c.toNat ≤ 65535) :
    character? (UInt8.ofNat (c.toNat / 4096 % 16 + 224) ::
      UInt8.ofNat (c.toNat / 64 % 64 + 128) :: UInt8.ofNat (c.toNat % 64 + 128) :: rest) =
      some (c, 2) := by
  have whole : (c.toNat / 4096 % 16 * 64 + c.toNat / 64 % 64) * 64 + c.toNat % 64 = c.toNat := by
    omega
  obtain ⟨high, first, second, top, lead⟩ := lead_three (n := c.toNat / 4096 % 16) (by omega)
  have middle := continuation_ofNat (n := c.toNat / 64 % 64) (by omega)
  have final := continuation_ofNat (n := c.toNat % 64) (by omega)
  have scalar : scalar? 0x800 c.toNat = some c := scalar_toNat (by omega)
  simp only [character?, high, first, second, top, ↓reduceIte, middle, final, lead, whole, scalar,
    Option.bind_eq_bind, Option.bind_some]

theorem character_four (large : 65535 < c.toNat) :
    character? (UInt8.ofNat (c.toNat / 262144 % 8 + 240) ::
      UInt8.ofNat (c.toNat / 4096 % 64 + 128) :: UInt8.ofNat (c.toNat / 64 % 64 + 128) ::
        UInt8.ofNat (c.toNat % 64 + 128) :: rest) = some (c, 3) := by
  have largest : c.toNat < 1114112 := by
    have valid := c.valid
    simp only [UInt32.isValidChar, Nat.isValidChar] at valid
    change c.val.toNat < 1114112
    omega
  have whole : ((c.toNat / 262144 % 8 * 64 + c.toNat / 4096 % 64) * 64 + c.toNat / 64 % 64) * 64 +
      c.toNat % 64 = c.toNat := by omega
  obtain ⟨high, first, second, third, top, lead⟩ :=
    lead_four (n := c.toNat / 262144 % 8) (by omega)
  have early := continuation_ofNat (n := c.toNat / 4096 % 64) (by omega)
  have middle := continuation_ofNat (n := c.toNat / 64 % 64) (by omega)
  have final := continuation_ofNat (n := c.toNat % 64) (by omega)
  have scalar : scalar? 0x10000 c.toNat = some c := scalar_toNat (by omega)
  simp only [character?, high, first, second, third, top, ↓reduceIte, early, middle, final, lead,
    whole, scalar, Option.bind_eq_bind, Option.bind_some]

end

/-- The character at the front of its own bytes. -/
theorem character_encode (c : Char) :
    ∃ a more, String.utf8EncodeChar c = a :: more ∧
      ∀ rest, character? (a :: (more ++ rest)) = some (c, more.length) := by
  have value : c.val.toNat = c.toNat := rfl
  by_cases one : c.toNat ≤ 127
  · exact ⟨_, [], by simp only [String.utf8EncodeChar, value, one, ↓reduceIte],
      fun rest => character_one rest one⟩
  by_cases two : c.toNat ≤ 2047
  · exact ⟨_, [_], by simp only [String.utf8EncodeChar, value, one, two, ↓reduceIte],
      fun rest => character_two rest (Nat.lt_of_not_le one) two⟩
  by_cases three : c.toNat ≤ 65535
  · exact ⟨_, [_, _], by simp only [String.utf8EncodeChar, value, one, two, three, ↓reduceIte],
      fun rest => character_three rest (Nat.lt_of_not_le two) three⟩
  · exact ⟨_, [_, _, _], by simp only [String.utf8EncodeChar, value, one, two, three, ↓reduceIte],
      fun rest => character_four rest (Nat.lt_of_not_le three)⟩

theorem collect_encode (acc : List Symbol) (c : Char) (rest : List UInt8) :
    collect acc (String.utf8EncodeChar c ++ rest) = collect (some c :: acc) rest := by
  obtain ⟨a, more, bytes, front⟩ := character_encode c
  rw [bytes, List.cons_append, collect, front]
  simp

/-- The bytes of a text are its characters and nothing else. -/
theorem symbols_encode (text : String) : symbols (encode text) = text.toList.map some := by
  have all (chars : List Char) (acc : List Symbol) :
      collect acc (chars.flatMap String.utf8EncodeChar) = acc.reverse ++ chars.map some := by
    induction chars generalizing acc with
    | nil => simp [collect]
    | cons c chars ih =>
      rw [List.flatMap_cons, collect_encode, ih]
      simp
  exact all text.toList []

/-- The bytes of a text are read back as the text. -/
theorem decode?_encode (text : String) : decode? (encode text) = some text := by
  simp [decode?, symbols_encode]

/-- A byte below `0x80` is a character of its own. -/
theorem mem_encodeChar {c : Char} {b : UInt8} (found : b ∈ String.utf8EncodeChar c) :
    b.toNat = c.toNat ∨ 128 ≤ b.toNat := by
  have value : c.val.toNat = c.toNat := rfl
  simp only [String.utf8EncodeChar, value] at found
  split_ifs at found <;> simp only [List.mem_cons, List.not_mem_nil, or_false] at found
  · subst found
    rw [UInt8.toNat_ofNat']
    omega
  · rcases found with rfl | rfl <;> rw [UInt8.toNat_ofNat'] <;> omega
  · rcases found with rfl | rfl | rfl <;> rw [UInt8.toNat_ofNat'] <;> omega
  · rcases found with rfl | rfl | rfl | rfl <;> rw [UInt8.toNat_ofNat'] <;> omega

/-- A text without control characters has no bytes below the space. -/
theorem space_le_of_mem_encode {text : String} (plain : ∀ c ∈ text.toList, 32 ≤ c.toNat) :
    ∀ b ∈ encode text, 32 ≤ b.toNat := by
  intro b found
  obtain ⟨c, member, inside⟩ := List.mem_flatMap.1 found
  have large := plain c member
  rcases mem_encodeChar inside with same | beyond <;> omega

theorem encode_ofList (chars : List Char) :
    encode (String.ofList chars) = chars.flatMap String.utf8EncodeChar := by
  rw [encode, String.toList_ofList]

/-- A byte below `0x80` is in a text only as the character that it stands for. -/
theorem mem_of_mem_encode {text : String} {b : UInt8} {c : Char} (small : b.toNat < 128)
    (stands : c.toNat = b.toNat) (found : b ∈ encode text) : c ∈ text.toList := by
  obtain ⟨d, member, inside⟩ := List.mem_flatMap.1 found
  rcases mem_encodeChar inside with same | beyond
  · obtain rfl : c = d := Char.toNat_inj.1 (stands.trans same)
    exact member
  · omega

end ChannelAgent.Utf8
