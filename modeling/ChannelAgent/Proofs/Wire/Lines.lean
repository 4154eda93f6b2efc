import ChannelAgent.Wire.Connection

set_option autoImplicit false

namespace ChannelAgent.Wire

/-- Bytes that one line may hold. -/
structure Fits (piece : List UInt8) : Prop where
  free : lineFeed ∉ piece
  short : piece.length ≤ lineLimit

theorem cut_nil (room : Nat) (acc : List UInt8) : cut room acc [] = .incomplete := by
  cases room <;> rfl

theorem cut_lineFeed (room : Nat) (acc rest : List UInt8) :
    cut room acc (lineFeed :: rest) = .line acc.reverse rest := by
  cases room <;> rfl

theorem cut_line {piece : List UInt8} (free : lineFeed ∉ piece) {room : Nat}
    (short : piece.length ≤ room) (acc rest : List UInt8) :
    cut room acc (piece ++ lineFeed :: rest) = .line (acc.reverse ++ piece) rest := by
  induction piece generalizing room acc with
  | nil => simpa using cut_lineFeed room acc rest
  | cons b piece ih =>
    obtain ⟨other, free⟩ := not_or.1 (mt List.mem_cons.2 free)
    cases room with
    | zero => simp at short
    | succ room =>
      rw [List.cons_append, cut, if_neg (Ne.symm other), ih free (Nat.le_of_succ_le_succ short)]
      simp

theorem cut_incomplete {bytes : List UInt8} (free : lineFeed ∉ bytes) {room : Nat}
    (short : bytes.length ≤ room) (acc : List UInt8) : cut room acc bytes = .incomplete := by
  induction bytes generalizing room acc with
  | nil => exact cut_nil room acc
  | cons b bytes ih =>
    obtain ⟨other, free⟩ := not_or.1 (mt List.mem_cons.2 free)
    cases room with
    | zero => simp at short
    | succ room =>
      rw [cut, if_neg (Ne.symm other)]
      exact ih free (Nat.le_of_succ_le_succ short) (b :: acc)

theorem cut_tooLong {front : List UInt8} (free : lineFeed ∉ front) {room : Nat}
    (long : room < front.length) (acc rest : List UInt8) :
    cut room acc (front ++ rest) = .tooLong := by
  induction front generalizing room acc with
  | nil => simp at long
  | cons b front ih =>
    obtain ⟨other, free⟩ := not_or.1 (mt List.mem_cons.2 free)
    cases room with
    | zero => rw [List.cons_append, cut, if_neg (Ne.symm other)]
    | succ room =>
      rw [List.cons_append, cut, if_neg (Ne.symm other)]
      exact ih free (Nat.lt_of_succ_lt_succ long) (b :: acc)

/-- A first line, the beginning of one that is too long, or the beginning of one that may go on. -/
theorem front_cases (bytes : List UInt8) :
    (∃ piece rest, bytes = piece ++ lineFeed :: rest ∧ Fits piece) ∨
      (∃ front rest, bytes = front ++ rest ∧ lineFeed ∉ front ∧ lineLimit < front.length) ∨
      Fits bytes := by
  by_cases found : lineFeed ∈ bytes
  · obtain ⟨piece, rest, rfl, free⟩ := List.eq_append_cons_of_mem found
    by_cases short : piece.length ≤ lineLimit
    · exact .inl ⟨piece, rest, rfl, free, short⟩
    · exact .inr (.inl ⟨piece, lineFeed :: rest, rfl, free, Nat.lt_of_not_le short⟩)
  · by_cases short : bytes.length ≤ lineLimit
    · exact .inr (.inr ⟨found, short⟩)
    · exact .inr (.inl ⟨bytes, [], by simp, found, Nat.lt_of_not_le short⟩)

theorem afterLineFeed_cases (bytes : List UInt8) :
    (∃ front rest, bytes = front ++ lineFeed :: rest ∧ lineFeed ∉ front ∧
        afterLineFeed bytes = some rest) ∨
      lineFeed ∉ bytes ∧ afterLineFeed bytes = none := by
  induction bytes with
  | nil => exact .inr ⟨List.not_mem_nil, rfl⟩
  | cons b bytes ih =>
    by_cases here : b = lineFeed
    · exact .inl ⟨[], bytes, by rw [here, List.nil_append], List.not_mem_nil, if_pos here⟩
    · have other : afterLineFeed (b :: bytes) = afterLineFeed bytes := if_neg here
      rw [other]
      rcases ih with ⟨front, rest, rfl, free, found⟩ | ⟨free, none⟩
      · refine .inl ⟨b :: front, rest, rfl, ?_, found⟩
        simp [free, Ne.symm here]
      · exact .inr ⟨by simp [free, Ne.symm here], none⟩

/-- The bytes that are read as lines: all but the rest of a line that is discarded. -/
def remainder (discarding : Bool) (bytes : List UInt8) : List UInt8 :=
  if discarding then (afterLineFeed bytes).getD [] else bytes

theorem remainder_kept (bytes : List UInt8) : remainder false bytes = bytes := rfl

theorem remainder_nil (discarding : Bool) : remainder discarding [] = [] := by
  cases discarding <;> rfl

/-- A line is discarded to its end, however much of it has gone before. -/
theorem remainder_front {front : List UInt8} (free : lineFeed ∉ front) (rest : List UInt8) :
    remainder true (front ++ rest) = remainder true rest := by
  induction front with
  | nil => rfl
  | cons b front ih =>
    obtain ⟨other, free⟩ := not_or.1 (mt List.mem_cons.2 free)
    have skipped : afterLineFeed (b :: (front ++ rest)) = afterLineFeed (front ++ rest) :=
      if_neg (Ne.symm other)
    simp only [remainder, List.cons_append, skipped] at ih ⊢
    exact ih free

theorem remainder_discarded {front : List UInt8} (free : lineFeed ∉ front) (rest : List UInt8) :
    remainder true (front ++ lineFeed :: rest) = rest :=
  remainder_front free (lineFeed :: rest)

theorem remainder_free {bytes : List UInt8} (free : lineFeed ∉ bytes) :
    remainder true bytes = [] := by
  have same := remainder_front free []
  rwa [List.append_nil, remainder_nil] at same

namespace LineReader

theorem next_line {piece : List UInt8} (fits : Fits piece) (rest : List UInt8) :
    next ⟨piece ++ lineFeed :: rest, false⟩ = (some (lineText piece), ⟨rest, false⟩) := by
  have first := cut_line fits.free fits.short [] rest
  simp only [next, discard, Bool.false_eq_true, ↓reduceIte, first, List.reverse_nil,
    List.nil_append]

theorem next_tooLong {front : List UInt8} (free : lineFeed ∉ front)
    (long : lineLimit < front.length) (rest : List UInt8) :
    next ⟨front ++ rest, false⟩ = (some (.error .tooLong), ⟨front ++ rest, true⟩) := by
  have first := cut_tooLong free long [] rest
  simp only [next, discard, Bool.false_eq_true, ↓reduceIte, first]

theorem next_none {held : List UInt8} (fits : Fits held) :
    next ⟨held, false⟩ = (none, ⟨held, false⟩) := by
  have first := cut_incomplete fits.free fits.short []
  simp only [next, discard, Bool.false_eq_true, ↓reduceIte, first]

/-- A reader discards the rest of a line, or has nothing left to look at. -/
theorem discard_cases (r : LineReader) :
    r.discard.discarding = false ∨ r.discard = ⟨[], true⟩ := by
  unfold discard
  cases discarding : r.discarding with
  | false => exact .inl discarding
  | true =>
    simp only [↓reduceIte]
    split
    · exact .inl rfl
    · exact .inr rfl

theorem next_discard (r : LineReader) : r.discard.next = r.next := by
  have again : r.discard.discard = r.discard := by
    rcases r.discard_cases with kept | waiting
    · rw [discard, if_neg (by simp [kept])]
    · rw [waiting]
      rfl
  rw [next, next, again]

theorem length_discard (r : LineReader) : r.discard.held.length ≤ r.held.length := by
  unfold discard
  split
  · rcases afterLineFeed_cases r.held with ⟨front, rest, held, -, found⟩ | ⟨-, none⟩
    · rw [found, held]
      simp only [List.length_append, List.length_cons]
      omega
    · simp [none]
  · exact Nat.le_refl _

end LineReader

theorem Window.ready_free {w : Window} (some_room : 0 < w.capacity) :
    0 < w.ready.free ∧ 0 < w.ready.capacity := by
  unfold ready
  split
  · exact ⟨‹_›, some_room⟩
  split
  · exact ⟨by show 0 < w.start; omega, some_room⟩
  · exact ⟨some_room, by show 0 < 2 * w.capacity; omega⟩

end ChannelAgent.Wire
