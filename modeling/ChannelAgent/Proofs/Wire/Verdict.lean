import ChannelAgent.Proofs.Wire.Lines
import ChannelAgent.Proofs.Wire.Written

set_option autoImplicit false

namespace ChannelAgent.Wire

structure Limit where
  /-- Whether a line is too long, a carriage return at its end included. -/
  exceeded : List UInt8 → Bool
  /-- Whether a line can be too long before its end has arrived. -/
  early : Bool

/-- The bytes of a line are counted as they arrive, its carriage return among them. -/
def Limit.arriving : Limit := ⟨fun piece => lineLimit < piece.length, true⟩

/-- The lines of a stream, in pieces between line feeds. The last piece is followed by none: it is a
line once the stream is over, or when it is too long already. -/
def lines (l : Limit) (atEnd : Bool) (bytes : List UInt8) : List (List UInt8) :=
  let pieces := bytes.splitOn lineFeed
  pieces.dropLast ++
    (pieces.getLast?.filter fun piece => atEnd || (l.early && l.exceeded piece)).toList

/-- What a line comes to for the one who receives, if it is not skipped. -/
def verdict? (l : Limit) (piece : List UInt8) : Option (Except TransportError Message) :=
  if l.exceeded piece then some (.error (.codec .tooLong))
  else
    match Utf8.decode? (withoutReturn piece) with
    | none => some (.error (.codec .notUtf8))
    | some line =>
      if Blank.allBlank line.toList then none
      else
        match Frame.parse line with
        | .ok (.message m) => some (.ok m)
        | .ok (.error text) => some (.error (.remote text))
        | .ok (.opening ..) => none
        | .error fault => some (.error (.json fault))

/-- What the lines of a stream come to that are not skipped. -/
def results (l : Limit) (atEnd : Bool) (bytes : List UInt8) :
    List (Except TransportError Message) :=
  (lines l atEnd bytes).filterMap (verdict? l)

/-- What the stream says to the one who has received `n` times before without having to wait. -/
def answer (l : Limit) (atEnd : Bool) (bytes : List UInt8) (n : Nat) :
    Received (Except TransportError Message) :=
  match (results l atEnd bytes)[n]? with
  | some result => .item result
  | none => if atEnd then .item (.error .closed) else .pending

theorem beq_lineFeed {piece : List UInt8} (free : lineFeed ∉ piece) :
    ∀ b ∈ piece, (b == lineFeed) = false := by
  intro b member
  exact beq_eq_false_iff_ne.2 fun same => free (same ▸ member)

theorem lines_cons {piece : List UInt8} (free : lineFeed ∉ piece) (l : Limit) (atEnd : Bool)
    (rest : List UInt8) :
    lines l atEnd (piece ++ lineFeed :: rest) = piece :: lines l atEnd rest := by
  have split : (piece ++ lineFeed :: rest).splitOn lineFeed = piece :: rest.splitOn lineFeed :=
    List.splitOnP_append_cons_of_forall_mem (beq_lineFeed free) lineFeed (by simp) rest
  have more := List.splitOn_ne_nil lineFeed rest
  simp only [lines, split, List.dropLast_cons_of_ne_nil more, List.getLast?_cons_of_ne_nil more,
    List.cons_append]

theorem lines_free {bytes : List UInt8} (free : lineFeed ∉ bytes) (l : Limit) (atEnd : Bool) :
    lines l atEnd bytes = if atEnd || (l.early && l.exceeded bytes) then [bytes] else [] := by
  have split : bytes.splitOn lineFeed = [bytes] := List.splitOnP_eq_singleton (beq_lineFeed free)
  simp only [lines, split, List.dropLast_singleton, List.getLast?_singleton, List.nil_append,
    Option.filter_some]
  split <;> rfl

theorem results_cons {piece : List UInt8} (free : lineFeed ∉ piece) (l : Limit) (atEnd : Bool)
    (rest : List UInt8) :
    results l atEnd (piece ++ lineFeed :: rest) =
      (verdict? l piece).toList ++ results l atEnd rest := by
  rw [results, lines_cons free, List.filterMap_cons]
  cases verdict? l piece <;> rfl

theorem results_atEnd {bytes : List UInt8} (free : lineFeed ∉ bytes) (l : Limit) :
    results l true bytes = (verdict? l bytes).toList := by
  rw [results, lines_free free, Bool.true_or, if_pos rfl, List.filterMap_cons]
  cases verdict? l bytes <;> rfl

theorem not_exceeded {piece : List UInt8} (fits : Fits piece) :
    Limit.arriving.exceeded piece = false := by
  simpa [Limit.arriving] using fits.short

theorem verdict?_long {piece : List UInt8} (long : lineLimit < piece.length) :
    verdict? .arriving piece = some (.error (.codec .tooLong)) := by
  rw [verdict?, if_pos (by simpa [Limit.arriving] using long)]

theorem verdict?_error {piece : List UInt8} {fault : LineFault} (fits : Fits piece)
    (read : lineText piece = .error fault) :
    verdict? .arriving piece = some (.error (.codec fault)) := by
  unfold lineText at read
  split at read
  · cases read
  · cases read
    simp only [verdict?, not_exceeded fits, Bool.false_eq_true, ↓reduceIte, *]

def Connection.Meaning.result? : Connection.Meaning → Option (Except TransportError Message)
  | .blank | .opening _ => none
  | .message m => some (.ok m)
  | .failure e => some (.error e)

theorem verdict?_ok {piece : List UInt8} {line : String} (fits : Fits piece)
    (read : lineText piece = .ok line) :
    verdict? .arriving piece = (Connection.meaning line).result? := by
  have decoded : Utf8.decode? (withoutReturn piece) = some line := by
    unfold lineText at read
    split at read <;> cases read
    assumption
  simp only [verdict?, not_exceeded fits, Bool.false_eq_true, ↓reduceIte, decoded,
    Connection.meaning]
  by_cases blank : Blank.allBlank line.toList = true
  · simp only [blank, ↓reduceIte]
    rfl
  · simp only [blank, Bool.false_eq_true, ↓reduceIte]
    rcases Frame.parse line with fault | (_ | _ | _) <;> rfl

/-- What a frame says to the one who receives. -/
def gist? : Frame → Option (Except TransportError Message)
  | .opening .. => none
  | .message m => some (.ok m)
  | .error text => some (.error (.remote text))

/-- The line of a frame that is written says what the frame says. -/
theorem verdict?_frame {f : Frame} (short : f.line.length ≤ lineLimit) :
    verdict? .arriving f.line = gist? f := by
  have fits : Fits f.line := ⟨f.lineFeed_notMem_line, short⟩
  simp only [verdict?, not_exceeded fits, Bool.false_eq_true, ↓reduceIte, f.withoutReturn_line,
    f.decode?_line, f.write_notBlank, f.parse_write]
  cases f <;> rfl

theorem verdict?_bare {piece : List UInt8} (bare : piece = [] ∨ piece = [13]) :
    verdict? .arriving piece = none := by
  have nothing : Utf8.decode? [] = some "" := Utf8.decode?_encode ""
  rcases bare with rfl | rfl <;>
    simp [verdict?, Limit.arriving, withoutReturn, nothing, Blank.allBlank]

theorem results_nil (atEnd : Bool) : results .arriving atEnd [] = [] := by
  have nothing : verdict? .arriving [] = none := verdict?_bare (.inl rfl)
  cases atEnd with
  | true => rw [results_atEnd List.not_mem_nil, nothing, Option.toList_none]
  | false => simp [results, lines_free, Limit.arriving]

/-- The beginning of a line that is too long is enough, and the rest of it is discarded. -/
theorem results_long {front : List UInt8} (free : lineFeed ∉ front)
    (long : lineLimit < front.length) (atEnd : Bool) (rest : List UInt8) :
    results .arriving atEnd (front ++ rest) =
      .error (.codec .tooLong) :: results .arriving atEnd (remainder true (front ++ rest)) := by
  rw [remainder_front free]
  by_cases found : lineFeed ∈ rest
  · obtain ⟨piece, rest, rfl, clear⟩ := List.eq_append_cons_of_mem found
    have whole : lineFeed ∉ front ++ piece := by simp [free, clear]
    have exceeded : lineLimit < (front ++ piece).length := by
      rw [List.length_append]
      omega
    rw [← List.append_assoc, results_cons whole, verdict?_long exceeded, remainder_discarded clear]
    rfl
  · have whole : lineFeed ∉ front ++ rest := by simp [free, found]
    have exceeded : lineLimit < (front ++ rest).length := by
      rw [List.length_append]
      omega
    have counts : (Limit.arriving.early && Limit.arriving.exceeded (front ++ rest)) = true := by
      simpa [Limit.arriving] using exceeded
    rw [remainder_free found, results_nil, results, lines_free whole, counts, Bool.or_true,
      if_pos rfl, List.filterMap_cons, verdict?_long exceeded]
    rfl

/-- What a line that was read comes to, if it is not skipped. -/
def said? : Except LineFault String → Option (Except TransportError Message)
  | .ok line => (Connection.meaning line).result?
  | .error fault => some (.error (.codec fault))

theorem said?_lineText {piece : List UInt8} (fits : Fits piece) :
    said? (lineText piece) = verdict? .arriving piece := by
  cases read : lineText piece with
  | ok line => exact (verdict?_ok fits read).symm
  | error fault => exact (verdict?_error fits read).symm

/-- A line that was read is a message, an error of the broker, or no frame. -/
theorem result?_cases {line : String} {result : Except TransportError Message}
    (means : (Connection.meaning line).result? = some result) :
    (∃ m, result = .ok m) ∨ (∃ text, result = .error (.remote text)) ∨
      ∃ fault, result = .error (.json fault) := by
  unfold Connection.meaning at means
  split at means
  · cases means
  · split at means <;> cases means <;> simp

end ChannelAgent.Wire
