import ChannelAgent.Proofs.Frame
import ChannelAgent.Proofs.Json.Plain
import ChannelAgent.Proofs.Text.Utf8
import ChannelAgent.Text.Blank
import ChannelAgent.Wire.Line

set_option autoImplicit false

namespace ChannelAgent

open Json

theorem Body.plain_write (b : Body) : Plain b.write := by
  rw [write_eq]
  exact plain_writeObject (by simp [plain_quoteString])

theorem Message.plain_buffered (m : Message) : ∀ w ∈ m.buffered, Plain w.2.1 := by
  obtain ⟨labels, body⟩ := m
  have texts : Plain (writeObject (labels.entries.map fun e => (e.1, quoteString e.2))) :=
    plain_writeObject (List.forall_mem_map.2 fun e _ => plain_quoteString e.2)
  cases body with
  | none => simpa [buffered] using texts
  | some b => simpa [buffered] using ⟨texts, b.plain_write⟩

namespace Frame

theorem plain_buffered (f : Frame) : ∀ w ∈ f.buffered, Plain w.2.1 := by
  cases f with
  | opening channel regional => simp [buffered, plain_quoteString, plain_writeBool]
  | message m => exact m.plain_buffered
  | error text => simp [buffered, plain_quoteString]

theorem plain_write (f : Frame) : Plain f.write.toList := by
  rw [write_eq, String.toList_ofList]
  refine plain_writeObject (List.forall_mem_cons.2 ⟨plain_quoteString f.tag, ?_⟩)
  exact List.forall_mem_map.2 f.plain_buffered

theorem write_notBlank (f : Frame) : Blank.allBlank f.write.toList = false := by
  rw [write_eq, String.toList_ofList]
  rfl

def line (f : Frame) : List UInt8 := Utf8.encode f.write

theorem space_le_of_mem_line (f : Frame) : ∀ b ∈ f.line, 32 ≤ b.toNat :=
  Utf8.space_le_of_mem_encode f.plain_write

theorem lineFeed_notMem_line (f : Frame) : Wire.lineFeed ∉ f.line := by
  intro found
  exact absurd (f.space_le_of_mem_line _ found) (by decide)

theorem return_notMem_line (f : Frame) : 13 ∉ f.line := by
  intro found
  exact absurd (f.space_le_of_mem_line _ found) (by decide)

theorem withoutReturn_line (f : Frame) : Wire.withoutReturn f.line = f.line := by
  rw [Wire.withoutReturn, if_neg]
  intro last
  exact f.return_notMem_line (List.mem_of_getLast? last)

theorem decode?_line (f : Frame) : Utf8.decode? f.line = some f.write := Utf8.decode?_encode f.write

end Frame

end ChannelAgent
