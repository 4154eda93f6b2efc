import ChannelAgent.Proofs.Wire.Verdict

set_option autoImplicit false

namespace ChannelAgent.Wire

namespace LineReader

/-- What a reader has yet to say when more bytes arrive. -/
def owed (r : LineReader) (atEnd : Bool) (more : List UInt8) :
    List (Except TransportError Message) :=
  results .arriving atEnd (remainder r.discarding (r.held ++ more))

theorem feed_owed (r : LineReader) (bytes : List UInt8) (atEnd : Bool) (more : List UInt8) :
    (r.feed bytes).owed atEnd more = r.owed atEnd (bytes ++ more) := by
  rw [owed, owed, feed, List.append_assoc]

theorem discard_owed (r : LineReader) (atEnd : Bool) (more : List UInt8) :
    r.discard.owed atEnd more = r.owed atEnd more := by
  obtain ⟨held, discarding⟩ := r
  cases discarding with
  | false => rfl
  | true =>
    simp only [discard, ↓reduceIte]
    rcases afterLineFeed_cases held with ⟨front, rest, rfl, free, found⟩ | ⟨free, none⟩
    · simp only [found, owed, List.append_assoc, List.cons_append, remainder_discarded free,
        remainder_kept]
    · simp only [none, owed, List.nil_append, remainder_front free]

/-- Nothing is found among the bytes held: no line, and at the end no last one either. -/
def Spent (r : LineReader) (ended : Bool) : Prop :=
  if ended then r.held = [] ∨ r.held = [13] else r = ⟨[], true⟩ ∨ r.discarding = false ∧ Fits r.held

theorem Spent.owed {r : LineReader} {ended : Bool} (spent : r.Spent ended) :
    r.owed ended [] = [] := by
  obtain ⟨held, discarding⟩ := r
  rw [LineReader.owed, List.append_nil]
  cases ended with
  | false =>
    rcases spent with ⟨rfl, rfl⟩ | ⟨kept, fits⟩
    · exact results_nil false
    · obtain rfl : discarding = false := kept
      rw [remainder_kept, results, lines_free fits.free, not_exceeded fits]
      rfl
  | true =>
    have bare : held = [] ∨ held = [13] := spent
    have free : lineFeed ∉ held := by rcases bare with rfl | rfl <;> decide
    cases discarding with
    | true => rw [remainder_free free, results_nil]
    | false => rw [remainder_kept, results_atEnd free, verdict?_bare bare, Option.toList_none]

/-- A reader finds what comes first, or nothing, and goes on to say the rest. At the end nothing
more arrives. -/
structure Reads (ended : Bool) (r : LineReader) (found : Option (Except LineFault String))
    (left : LineReader) : Prop where
  owed : ∀ (atEnd : Bool) (more : List UInt8), (ended = true → atEnd = true ∧ more = []) →
    (found.bind said?).toList ++ left.owed atEnd more = r.owed atEnd more
  spent : found = none → left.Spent ended
  shorter : left.held.length ≤ r.held.length
  taken : ∀ line, found = some (.ok line) → left.held.length < r.held.length

theorem next_reads (r : LineReader) : r.Reads false r.next.1 r.next.2 := by
  suffices reads : r.discard.Reads false r.next.1 r.next.2 by
    have less := r.length_discard
    refine ⟨?_, reads.spent, Nat.le_trans reads.shorter less, ?_⟩
    · intro atEnd more extra
      rw [reads.owed atEnd more extra, discard_owed]
    · exact fun line found => Nat.lt_of_lt_of_le (reads.taken line found) less
  rw [← r.next_discard]
  rcases r.discard_cases with kept | waiting
  · generalize r.discard = r at kept ⊢
    obtain ⟨held, discarding⟩ := r
    obtain rfl : discarding = false := kept
    rcases front_cases held with ⟨piece, rest, rfl, fits⟩ | ⟨front, rest, rfl, free, long⟩ | fits
    · rw [next_line fits]
      have shorter : rest.length < (piece ++ lineFeed :: rest).length := by
        simp only [List.length_append, List.length_cons]
        omega
      refine ⟨fun atEnd more _ => ?_, nofun, Nat.le_of_lt shorter, fun _ _ => shorter⟩
      simp only [owed, remainder_kept, Option.bind_some, said?_lineText fits, List.append_assoc,
        List.cons_append, results_cons fits.free]
    · rw [next_tooLong free long]
      refine ⟨fun atEnd more _ => ?_, nofun, Nat.le_refl _, nofun⟩
      simp only [owed, remainder_kept, List.append_assoc, results_long free long]
      rfl
    · rw [next_none fits]
      exact ⟨fun _ _ _ => rfl, fun _ => .inr ⟨rfl, fits⟩, Nat.le_refl _, nofun⟩
  · rw [waiting]
    exact ⟨fun _ _ _ => rfl, fun _ => .inl rfl, Nat.le_refl _, nofun⟩

/-- At the end the last line needs no line feed. -/
theorem last_reads (r : LineReader) : r.Reads true r.last.1 r.last.2 := by
  have before := r.next_reads
  unfold last
  generalize r.next = search at before ⊢
  obtain ⟨_ | line, left⟩ := search
  · simp only
    split
    · rename_i bare
      exact ⟨fun atEnd more _ => before.owed atEnd more nofun, fun _ => bare, before.shorter, nofun⟩
    · rename_i more
      rcases before.spent rfl with rfl | ⟨kept, fits⟩
      · exact absurd (.inl rfl) more
      obtain ⟨held, discarding⟩ := left
      obtain rfl : discarding = false := kept
      have some_held : 0 < held.length := List.length_pos_iff.2 fun none => more (.inl none)
      refine ⟨fun atEnd later extra => ?_, nofun, ?_, fun _ _ => ?_⟩
      · obtain ⟨rfl, rfl⟩ := extra rfl
        have said := before.owed true [] nofun
        simp only [owed, remainder_kept, List.append_nil, results_nil, Option.bind_some,
          said?_lineText fits] at said ⊢
        rw [← said, results_atEnd fits.free]
        rfl
      · exact Nat.zero_le _
      · exact Nat.lt_of_lt_of_le some_held before.shorter
  · exact ⟨fun atEnd more _ => before.owed atEnd more nofun, nofun, before.shorter, before.taken⟩

end LineReader

/-- What was read comes to, if it is not skipped. -/
def Received.said? : Received (Except LineFault String) → Option (Except TransportError Message)
  | .item line => Wire.said? line
  | .closed | .pending => none

namespace Inlet

/-- What an inlet has yet to say when more bytes arrive. -/
def owed (i : Inlet) (atEnd : Bool) (more : List UInt8) : List (Except TransportError Message) :=
  i.reader.owed atEnd (i.pipe.unread ++ more)

/-- What holds of every inlet, whatever has happened to it. -/
structure Sane (i : Inlet) : Prop where
  roomy : 0 < i.window.capacity
  /-- The end of the input is not read before its last byte. -/
  anchored : i.ended = true → i.pipe.ended = true ∧ i.pipe.unread = []

/-- An inlet that leaves no line unsearched: if all that has arrived was taken in and is not
searched any more, then nothing is found there. -/
structure Alert (i : Inlet) : Prop extends Sane i where
  calm : i.faulty = false
  searched : i.searchable = false → i.pipe.unread = [] → i.pipe.ended = i.ended →
    i.reader.Spent i.ended

theorem alert_new (pipe : Pipe) : (new pipe).Alert where
  roomy := by
    change 0 < Window.initial.capacity
    decide
  anchored := nofun
  calm := rfl
  searched _ _ _ := .inr ⟨rfl, List.not_mem_nil, Nat.zero_le _⟩

/-- An inlet says something or nothing, and goes on to say the rest. It notes a fault. -/
structure Pays (i : Inlet) (said : Option (Except TransportError Message)) (j : Inlet) : Prop where
  sane : j.Sane
  ended : j.pipe.ended = i.pipe.ended
  shorter : j.remaining ≤ i.remaining
  paid : ∀ (atEnd : Bool) (more : List UInt8), (i.pipe.ended = true → atEnd = true ∧ more = []) →
    said.toList ++ j.owed atEnd more = i.owed atEnd more
  noted : ∀ fault, said = some (.error (.codec fault)) → j.faulty = true

section

variable {i j k : Inlet} {said : Option (Except TransportError Message)}

/-- An inlet that does not look at its bytes says nothing. -/
theorem Pays.rest (sane : j.Sane) (reader : j.reader = i.reader) (pipe : j.pipe = i.pipe) :
    i.Pays none j where
  sane := sane
  ended := by rw [pipe]
  shorter := Nat.le_of_eq (by rw [remaining, remaining, reader, pipe])
  paid atEnd more _ := by rw [owed, owed, reader, pipe, Option.toList_none, List.nil_append]
  noted := nofun

theorem Pays.trans (first : i.Pays none j) (later : j.Pays said k) : i.Pays said k where
  sane := later.sane
  ended := later.ended.trans first.ended
  shorter := Nat.le_trans later.shorter first.shorter
  paid atEnd more extra := by
    rw [later.paid atEnd more (first.ended ▸ extra), ← first.paid atEnd more extra]
    rfl
  noted := later.noted

end

/-- What an inlet comes to that looks for a line: only a fault makes it leave lines unsearched. It
waits when nothing is left to say before the end, and closes when nothing is left at the end. -/
structure Decides (i : Inlet) (found : Received (Except LineFault String)) (j : Inlet) : Prop where
  pays : i.Pays found.said? j
  alert : (∀ fault, found ≠ .item (.error fault)) → j.Alert
  waits : found = .pending → j.pipe.ended = false ∧ j.owed false [] = []
  closes : found = .closed → j.pipe.ended = true ∧ j.owed true [] = []
  taken : ∀ line, found = .item (.ok line) → j.remaining < i.remaining

section

variable {i j k : Inlet} {found : Received (Except LineFault String)}

theorem Pays.decides (first : i.Pays none j) (later : j.Decides found k) : i.Decides found k where
  pays := first.trans later.pays
  alert := later.alert
  waits := later.waits
  closes := later.closes
  taken line same := Nat.lt_of_lt_of_le (later.taken line same) first.shorter

theorem search_idle (searched : i.searchable = false) : i.search = (none, i) := by
  simp [search, searched]

/-- Whatever its reader finds, an inlet goes on to say what the reader has left to say. -/
theorem pays_of_reads {read : Option (Except LineFault String)} {left : LineReader}
    (reads : i.reader.Reads i.ended read left) (sane : i.Sane) {window : Window}
    (roomy : 0 < window.capacity) {searchable faulty : Bool}
    (noted : ∀ fault, read.bind said? = some (.error (.codec fault)) → faulty = true) :
    i.Pays (read.bind said?) ⟨i.pipe, left, window, searchable, i.ended, faulty⟩ where
  sane := ⟨roomy, sane.anchored⟩
  ended := rfl
  shorter := Nat.add_le_add_right reads.shorter _
  paid atEnd more extra := by
    refine reads.owed atEnd (i.pipe.unread ++ more) fun ended => ?_
    obtain ⟨whole, read⟩ := sane.anchored ended
    obtain ⟨past, none⟩ := extra whole
    exact ⟨past, by rw [read, none, List.append_nil]⟩
  noted := noted

/-- A search decides, or nothing is found before the end. -/
theorem search_decides (sane : i.Sane) (calm : i.faulty = false) (fresh : i.searchable = true) :
    (∃ found j, i.search = (some found, j) ∧ i.Decides found j) ∨
      i.ended = false ∧ ∃ j, i.search = (none, j) ∧
        i.Pays none j ∧ j.Alert ∧ j.searchable = false ∧ j.pipe = i.pipe := by
  have reads : i.reader.Reads i.ended (if i.ended then i.reader.last else i.reader.next).1
      (if i.ended then i.reader.last else i.reader.next).2 := by
    cases i.ended with
    | false => exact i.reader.next_reads
    | true => exact i.reader.last_reads
  simp only [search, fresh, ↓reduceIte]
  generalize (if i.ended then i.reader.last else i.reader.next) = search at reads ⊢
  obtain ⟨read, left⟩ := search
  let window := i.window.release (i.reader.held.length - left.held.length)
  have roomy : 0 < window.capacity := sane.roomy
  cases read with
  | none =>
    have pays : i.Pays none ⟨i.pipe, left, window, false, i.ended, i.faulty⟩ :=
      pays_of_reads reads sane roomy nofun
    have alert : Alert ⟨i.pipe, left, window, false, i.ended, i.faulty⟩ :=
      ⟨pays.sane, calm, fun _ _ _ => reads.spent rfl⟩
    cases ended : i.ended with
    | false => exact .inr ⟨rfl, _, rfl, ended ▸ pays, ended ▸ alert, rfl, rfl⟩
    | true =>
      obtain ⟨whole, nothing⟩ := sane.anchored ended
      have spent := (reads.spent rfl).owed
      refine .inl ⟨.closed, _, rfl, ended ▸ pays, fun _ => ended ▸ alert, nofun, fun _ => ?_, nofun⟩
      rw [ended] at spent
      refine ⟨whole, ?_⟩
      rwa [owed, nothing]
  | some line =>
    cases line with
    | error fault =>
      have pays : i.Pays (some (.error (.codec fault))) ⟨i.pipe, left, window, true, i.ended, true⟩ :=
        pays_of_reads reads sane roomy fun _ _ => rfl
      exact .inl ⟨_, _, rfl, pays, fun clear => absurd rfl (clear fault), nofun, nofun, nofun⟩
    | ok line =>
      have pays : i.Pays (Wire.said? (.ok line)) ⟨i.pipe, left, window, true, i.ended, i.faulty⟩ :=
        pays_of_reads reads sane roomy fun fault same => by have from_line := result?_cases same; simp at from_line
      refine .inl ⟨_, _, rfl, pays, fun _ => ⟨pays.sane, calm, nofun⟩, nofun, nofun, ?_⟩
      exact fun _ _ => Nat.add_lt_add_right (reads.taken line rfl) _

/-- Nothing more has arrived and all was searched: the inlet waits or comes to the end. -/
theorem pull_searched (alert : i.Alert) (searched : i.searchable = false)
    (read : i.pipe.unread = []) (rounds : Nat) :
    i.Decides (pull (rounds + 1) i).1 (pull (rounds + 1) i).2 := by
  have stays : i.Pays none i := .rest alert.toSane rfl rfl
  have spent (whole : i.pipe.ended = i.ended) : i.owed i.ended [] = [] := by
    have nothing := (alert.searched searched read whole).owed
    rwa [owed, read]
  simp only [pull, search_idle searched, read, List.isEmpty_nil, ↓reduceIte]
  cases whole : i.pipe.ended with
  | false =>
    have running : i.ended = false := by
      cases ended : i.ended with
      | false => rfl
      | true => exact absurd (alert.anchored ended).1 (by simp [whole])
    rw [running, whole] at spent
    exact ⟨stays, fun _ => alert, fun _ => ⟨whole, spent rfl⟩, nofun, nofun⟩
  | true =>
    cases ended : i.ended with
    | true =>
      rw [ended, whole] at spent
      exact ⟨stays, fun _ => alert, nofun, fun _ => ⟨whole, spent rfl⟩, nofun⟩
    | false =>
      -- the end of the input is met, and the bytes held are searched once more
      let met : Inlet := { i with ended := true, searchable := true }
      have sane : met.Sane := ⟨alert.roomy, fun _ => ⟨whole, read⟩⟩
      rcases search_decides sane alert.calm rfl with ⟨found, j, search, decides⟩ | ⟨running, -⟩
      · simp only [Bool.false_eq_true, ↓reduceIte, met] at search ⊢
        rw [search]
        exact Pays.decides (.rest sane rfl rfl) decides
      · cases running

theorem Alert.takeIn (alert : i.Alert) (n : Nat) :
    ({ i with window := i.window.ready }.takeIn n).Alert where
  roomy := (Window.ready_free alert.roomy).2
  anchored := nofun
  calm := alert.calm
  searched := nofun

theorem takeIn_pays (sane : i.Sane) (n : Nat) :
    i.Pays none ({ i with window := i.window.ready }.takeIn n) where
  sane := ⟨(Window.ready_free sane.roomy).2, nofun⟩
  ended := rfl
  shorter := by
    simp only [remaining, Inlet.takeIn, LineReader.feed, List.length_append, List.length_take,
      List.length_drop]
    omega
  paid atEnd more _ := by
    simp only [owed, Inlet.takeIn, LineReader.feed_owed, ← List.append_assoc,
      List.take_append_drop, Option.toList_none, List.nil_append]
  noted := nofun

theorem pull_decides {rounds : Nat} (alert : i.Alert) (enough : i.pipe.unread.length < rounds) :
    i.Decides (pull rounds i).1 (pull rounds i).2 := by
  -- every round but the last takes in at least one byte, so the rounds do not run out first
  induction rounds generalizing i with
  | zero => exact absurd enough (Nat.not_lt_zero _)
  | succ rounds ih =>
    have reads {j : Inlet} (alert : j.Alert) (searched : j.searchable = false)
        (left : j.pipe.unread.length < rounds + 1) :
        j.Decides (pull (rounds + 1) j).1 (pull (rounds + 1) j).2 := by
      by_cases read : j.pipe.unread = []
      · exact pull_searched alert searched read rounds
      let n := min j.window.ready.free j.pipe.unread.length
      have room := (Window.ready_free alert.roomy).1
      have arrived := List.length_pos_iff.2 read
      have decides := ih (alert.takeIn n) (by
        simp only [Inlet.takeIn, List.length_drop]
        omega)
      simp only [pull, search_idle searched, List.isEmpty_iff, read, ↓reduceIte]
      exact (takeIn_pays alert.toSane n).decides decides
    cases fresh : i.searchable with
    | false => exact reads alert fresh enough
    | true =>
      rcases search_decides alert.toSane alert.calm fresh with
        ⟨found, j, search, decides⟩ | ⟨-, j, search, pays, waiting, searched, pipe⟩
      · rwa [pull, search]
      · have same : pull (rounds + 1) i = pull (rounds + 1) j := by
          rw [pull, pull, search, search_idle searched]
        rw [same]
        exact pays.decides (reads waiting searched (pipe ▸ enough))

/-- The next line of an inlet that leaves none unsearched. -/
theorem nextLine_decides (alert : i.Alert) : i.Decides i.nextLine.1 i.nextLine.2 := by
  simpa only [nextLine, alert.calm, Bool.false_eq_true, ↓reduceIte] using
    pull_decides alert (Nat.lt_succ_self _)

end

end Inlet

end ChannelAgent.Wire
