import ChannelAgent.Json.Printer

set_option autoImplicit false

namespace ChannelAgent.Json

def Plain (text : List Char) : Prop := ∀ c ∈ text, 32 ≤ c.toNat

instance (text : List Char) : Decidable (Plain text) := List.decidableBAll _ text

theorem plain_append {left right : List Char} :
    Plain (left ++ right) ↔ Plain left ∧ Plain right := List.forall_mem_append

theorem plain_cons {c : Char} {rest : List Char} :
    Plain (c :: rest) ↔ 32 ≤ c.toNat ∧ Plain rest := List.forall_mem_cons

theorem plain_nil : Plain [] := nofun

/-- Below the space every character has an escape. -/
theorem plain_escapeChar (c : Char) : Plain (escapeChar c) := by
  by_cases control : c.toNat < 32
  · have all : ∀ n < 32, Plain (escapeChar (Char.ofNat n)) := by decide
    have escaped := all c.toNat control
    rwa [Char.ofNat_toNat] at escaped
  · have self : Plain [c] := plain_cons.2 ⟨Nat.le_of_not_lt control, plain_nil⟩
    unfold escapeChar
    repeat' split
    all_goals first | exact self | exact absurd ‹_› control | decide

theorem plain_quoteString (s : String) : Plain (quoteString s) := by
  have quote : Plain ['"'] := by decide
  refine plain_append.2 ⟨plain_append.2 ⟨quote, ?_⟩, quote⟩
  intro x inside
  obtain ⟨c, -, escaped⟩ := List.mem_flatMap.1 inside
  exact plain_escapeChar c x escaped

theorem plain_writeBool (b : Bool) : Plain (writeBool b) := by cases b <;> decide

theorem plain_commaSeparated {texts : List (List Char)} (plain : ∀ text ∈ texts, Plain text) :
    Plain (commaSeparated texts) := by
  fun_induction commaSeparated texts with
  | case1 => exact plain_nil
  | case2 text => exact plain text (List.mem_singleton_self text)
  | case3 text rest more ih =>
    obtain ⟨first, later⟩ := List.forall_mem_cons.1 plain
    exact plain_append.2 ⟨first, plain_cons.2 ⟨by decide, ih later⟩⟩

theorem plain_writeObject {members : List (String × List Char)}
    (plain : ∀ m ∈ members, Plain m.2) : Plain (writeObject members) := by
  refine plain_append.2 ⟨plain_cons.2 ⟨by decide, plain_commaSeparated ?_⟩, ?_⟩
  · refine List.forall_mem_map.2 fun m member => ?_
    exact plain_append.2 ⟨plain_quoteString m.1, plain_cons.2 ⟨by decide, plain m member⟩⟩
  · exact plain_cons.2 ⟨by decide, plain_nil⟩

end ChannelAgent.Json
