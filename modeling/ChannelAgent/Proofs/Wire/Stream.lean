import ChannelAgent.Proofs.Wire.Inlet

set_option autoImplicit false

namespace ChannelAgent.Wire

/-- What was received, but for the end of the stream. -/
def Received.outcome? :
    Received (Except TransportError Message) → Option (Except TransportError Message)
  | .item (.error .closed) | .closed | .pending => none
  | .item result => some result

theorem Received.eq_item_of_outcome? {found : Received (Except TransportError Message)}
    {result : Except TransportError Message} (given : found.outcome? = some result) :
    found = .item result := by
  unfold outcome? at given
  split at given <;> cases given
  rfl

/-- How many answers something received counts for. -/
def Received.answers {α : Type} : Received α → Nat
  | .pending => 0
  | _ => 1

/-- What is received by the one to whom `said` is left to say. -/
def reply (atEnd : Bool) (said : List (Except TransportError Message)) :
    Received (Except TransportError Message) :=
  match said.head? with
  | some result => .item result
  | none => if atEnd then .item (.error .closed) else .pending

theorem answer_eq_reply (l : Limit) (atEnd : Bool) (bytes : List UInt8) (n : Nat) :
    answer l atEnd bytes n = reply atEnd ((results l atEnd bytes).drop n) := by
  have first : ((results l atEnd bytes).drop n).head? = (results l atEnd bytes)[n]? :=
    List.head?_drop
  cases found : (results l atEnd bytes)[n]? <;> simp only [answer, reply, first, found]

/-- What an inlet comes to that receives: the first of what was left to say is received, and only a
fault makes the inlet leave lines unsearched. -/
structure Answers (i : Inlet) (found : Received (Except TransportError Message)) (j : Inlet) :
    Prop where
  pays : i.Pays found.outcome? j
  said : found = reply i.pipe.ended (i.owed i.pipe.ended [])
  spent : found.outcome? = none → i.owed i.pipe.ended [] = []
  alert : (∀ fault, found ≠ .item (.error (.codec fault))) → j.Alert

section

variable {i j k : Inlet} {line : String} {said : Option (Except TransportError Message)}
  {result : Except TransportError Message} {found : Received (Except TransportError Message)}

/-- What is left to say once nothing more arrives. -/
theorem Inlet.Pays.owed_now (pays : i.Pays said j) :
    i.owed i.pipe.ended [] = said.toList ++ j.owed j.pipe.ended [] := by
  rw [pays.ended]
  exact (pays.paid i.pipe.ended [] fun ended => ⟨ended, rfl⟩).symm

namespace Answers

theorem of_pending (decides : i.Decides .pending j) : Answers i .pending j := by
  obtain ⟨running, nothing⟩ := decides.waits rfl
  have spent : i.owed i.pipe.ended [] = [] := by
    rw [decides.pays.owed_now, running, nothing]
    rfl
  refine ⟨decides.pays, ?_, fun _ => spent, fun _ => decides.alert nofun⟩
  rw [spent, ← decides.pays.ended, running]
  rfl

theorem of_closed (decides : i.Decides .closed j) : Answers i (.item (.error .closed)) j := by
  obtain ⟨ended, nothing⟩ := decides.closes rfl
  have spent : i.owed i.pipe.ended [] = [] := by
    rw [decides.pays.owed_now, ended, nothing]
    rfl
  refine ⟨decides.pays, ?_, fun _ => spent, fun _ => decides.alert nofun⟩
  rw [spent, ← decides.pays.ended, ended]
  rfl

theorem of_result (pays : i.Pays (some result) j) (open_ : result ≠ .error .closed)
    (alert : (∀ fault, result ≠ .error (.codec fault)) → j.Alert) : Answers i (.item result) j := by
  have given : (Received.item result).outcome? = some result := by
    unfold Received.outcome?
    split <;> simp_all
  refine ⟨given ▸ pays, by rw [pays.owed_now]; rfl, fun nothing => ?_, fun clear => ?_⟩
  · rw [given] at nothing
    cases nothing
  · exact alert fun fault same => clear fault (by rw [same])

/-- A line that means something is received for what it means. -/
theorem give (decides : i.Decides (.item (.ok line)) j)
    (means : (Connection.meaning line).result? = some result) : Answers i (.item result) j := by
  have pays : i.Pays (some result) j := means ▸ decides.pays
  refine of_result pays ?_ fun _ => decides.alert nofun
  rcases result?_cases means with ⟨m, rfl⟩ | ⟨text, rfl⟩ | ⟨fault, rfl⟩ <;> simp

/-- A line that is skipped makes no difference. -/
theorem skip (decides : i.Decides (.item (.ok line)) j)
    (skipped : (Connection.meaning line).result? = none) (answers : Answers j found k) :
    Answers i found k := by
  have pays : i.Pays none j := skipped ▸ decides.pays
  have same : i.owed i.pipe.ended [] = j.owed j.pipe.ended [] := pays.owed_now
  refine ⟨pays.trans answers.pays, ?_, fun nothing => ?_, answers.alert⟩
  · rw [answers.said, same, pays.ended]
  · rw [same, answers.spent nothing]

end Answers

end

namespace Connection

theorem receiveFrom_answers {lines : Nat} {i : Inlet} (alert : i.Alert)
    (enough : i.remaining < lines) (channels : List String) :
    Answers i (receiveFrom channels lines i).1 (receiveFrom channels lines i).2.2 := by
  induction lines generalizing i channels with
  | zero => exact absurd enough (Nat.not_lt_zero _)
  | succ lines ih =>
    have decides := Inlet.nextLine_decides alert
    unfold receiveFrom
    generalize i.nextLine = next at decides ⊢
    obtain ⟨(fault | line) | _ | _, j⟩ := next
    · exact .of_result decides.pays (by simp) fun clear => absurd rfl (clear fault)
    · have left : j.remaining < lines := by
        have shorter := decides.taken line rfl
        simp only at shorter
        omega
      have alert := decides.alert nofun
      cases means : meaning line with
      | blank =>
        simp only [means]
        exact .skip decides (by rw [means]; rfl) (ih alert left channels)
      | opening channel =>
        simp only [means]
        exact .skip decides (by rw [means]; rfl) (ih alert left (channel :: channels))
      | message m =>
        simp only [means]
        exact .give decides (by rw [means]; rfl)
      | failure e =>
        simp only [means]
        exact .give decides (by rw [means]; rfl)
    · exact .of_closed decides
    · exact .of_pending decides

theorem receive_answers {c : Connection} (alert : c.inlet.Alert) :
    Answers c.inlet c.receive.1 c.receive.2.2.inlet :=
  receiveFrom_answers alert (Nat.lt_succ_self _) []

end Connection

inductive Action
  | feed (bytes : List UInt8)
  | endInput
  | hangUp
  | send (m : Message)
  | receive

def arrivals : List Action → List UInt8
  | [] => []
  | .feed bytes :: rest => bytes ++ arrivals rest
  | .endInput :: _ | .hangUp :: _ => []
  | .send _ :: rest | .receive :: rest => arrivals rest

def isOver : List Action → Bool
  | [] => false
  | .endInput :: _ | .hangUp :: _ => true
  | .feed _ :: rest | .send _ :: rest | .receive :: rest => isOver rest

/-- How many of the receives did not have to wait. -/
def answered : List (Received (Except TransportError Message)) → Nat
  | [] => 0
  | found :: later => found.answers + answered later

namespace Connection

/-- What is received while the actions happen, and the connection after them. A message that cannot
be sent leaves the connection as it is. -/
def run (c : Connection) :
    List Action → List (Received (Except TransportError Message)) × Connection
  | [] => ([], c)
  | .feed bytes :: rest => run (c.feed bytes) rest
  | .endInput :: rest => run c.endInput rest
  | .hangUp :: rest => run c.hangUp rest
  | .send m :: rest =>
    match c.send m with
    | .ok c => run c rest
    | .error _ => run c rest
  | .receive :: rest =>
    let later := run c.receive.2.2 rest
    (c.receive.1 :: later.1, later.2)

theorem run_append (c : Connection) (first later : List Action) :
    run c (first ++ later) =
      ((run c first).1 ++ (run (run c first).2 later).1, (run (run c first).2 later).2) := by
  induction first generalizing c with
  | nil => rfl
  | cons action first ih =>
    cases action with
    | feed bytes => exact ih (c.feed bytes)
    | endInput => exact ih c.endInput
    | hangUp => exact ih c.hangUp
    | send m =>
      simp only [List.cons_append, run]
      split <;> exact ih _
    | receive => simp only [List.cons_append, run, ih c.receive.2.2]

/-- What still arrives, unless the input has ended. -/
def expected (c : Connection) (actions : List Action) : List UInt8 :=
  if c.inlet.pipe.ended then [] else arrivals actions

/-- What is yet to be said if the actions happen, by what has arrived before and what they bring. -/
def promised (c : Connection) (actions : List Action) : List (Except TransportError Message) :=
  c.inlet.owed (c.inlet.pipe.ended || isOver actions) (c.expected actions)

def after (c : Connection) : Action → Connection
  | .feed bytes => c.feed bytes
  | .endInput => c.endInput
  | .hangUp => c.hangUp
  | .send m =>
    match c.send m with
    | .ok d => d
    | .error _ => c
  | .receive => c.receive.2.2

theorem run_quiet {action : Action} (quiet : action ≠ .receive) (c : Connection)
    (rest : List Action) : run c (action :: rest) = run (c.after action) rest := by
  cases action with
  | feed | endInput | hangUp => rfl
  | send m =>
    simp only [run, after]
    split <;> rfl
  | receive => exact absurd rfl quiet

theorem send_inlet {c d : Connection} {m : Message} (sent : c.send m = .ok d) :
    d.inlet = c.inlet := by
  unfold send write at sent
  split at sent <;> cases sent
  rfl

section

variable {c d : Connection}

theorem inlet_send (c : Connection) (m : Message) : (c.after (.send m)).inlet = c.inlet := by
  cases sent : c.send m with
  | error e => simp only [after, sent]
  | ok d => simp only [after, sent, send_inlet sent]

/-- More bytes, and the end of the input, are all that the inlet takes notice of. -/
theorem inlet_after {action : Action} (quiet : action ≠ .receive) :
    (c.after action).inlet = c.inlet ∨
      (c.inlet.pipe.ended = false ∧ ∃ bytes, (c.after action).inlet =
        { c.inlet with pipe := ⟨c.inlet.pipe.unread ++ bytes, false⟩ }) ∨
      (c.after action).inlet = { c.inlet with pipe := ⟨c.inlet.pipe.unread, true⟩ } := by
  cases action with
  | feed bytes =>
    cases running : c.inlet.pipe.ended with
    | true => exact .inl (by rw [after, feed, if_pos running])
    | false => exact .inr (.inl ⟨rfl, bytes, by simp [after, feed, running]⟩)
  | endInput | hangUp => exact .inr (.inr rfl)
  | send m => exact .inl (c.inlet_send m)
  | receive => exact absurd rfl quiet

theorem sane_after (sane : c.inlet.Sane) {action : Action} (quiet : action ≠ .receive) :
    (c.after action).inlet.Sane := by
  rcases inlet_after quiet with same | ⟨running, bytes, same⟩ | same <;> rw [same]
  · exact sane
  · exact ⟨sane.roomy, fun ended => absurd (sane.anchored ended).1 (by simp [running])⟩
  · exact ⟨sane.roomy, fun ended => ⟨rfl, (sane.anchored ended).2⟩⟩

theorem alert_after (alert : c.inlet.Alert) {action : Action} (quiet : action ≠ .receive) :
    (c.after action).inlet.Alert := by
  have sane := sane_after alert.toSane quiet
  rcases inlet_after quiet with same | ⟨running, bytes, same⟩ | same <;> rw [same] at sane ⊢
  · exact alert
  · refine ⟨sane, alert.calm, fun searched read whole => ?_⟩
    exact alert.searched searched (List.append_eq_nil_iff.1 read).1 (running.trans whole)
  · refine ⟨sane, alert.calm, fun searched read whole => ?_⟩
    exact alert.searched searched read ((alert.anchored whole.symm).1.trans whole)

theorem promised_after {action : Action} (quiet : action ≠ .receive) (rest : List Action) :
    (c.after action).promised rest = c.promised (action :: rest) := by
  cases action with
  | feed bytes =>
    cases running : c.inlet.pipe.ended <;>
      simp [after, feed, promised, expected, Inlet.owed, arrivals, isOver, running]
  | endInput =>
    simp [after, endInput, promised, expected, Inlet.owed, arrivals, isOver]
  | hangUp =>
    simp [after, hangUp, promised, expected, Inlet.owed, arrivals, isOver]
  | send m =>
    rw [promised, promised, expected, expected, c.inlet_send m]
    rfl
  | receive => exact absurd rfl quiet

theorem over_after {action : Action} (quiet : action ≠ .receive) (rest : List Action) :
    ((c.after action).inlet.pipe.ended || isOver rest) =
      (c.inlet.pipe.ended || isOver (action :: rest)) := by
  cases action with
  | feed bytes =>
    cases running : c.inlet.pipe.ended <;> simp [after, feed, isOver, running]
  | endInput => simp [after, endInput, isOver]
  | hangUp => simp [after, hangUp, isOver]
  | send m => rw [c.inlet_send m, isOver]
  | receive => exact absurd rfl quiet

theorem promised_nil (c : Connection) : c.promised [] = c.inlet.owed c.inlet.pipe.ended [] := by
  rw [promised, isOver, Bool.or_false, expected, arrivals, ite_self]

/-- What is received was promised first. -/
theorem promised_of_pays {said : Option (Except TransportError Message)}
    (pays : c.inlet.Pays said d.inlet) (rest : List Action) :
    c.promised rest = said.toList ++ d.promised rest := by
  have paid := pays.paid (c.inlet.pipe.ended || isOver rest) (c.expected rest)
    fun ended => by simp [ended, expected]
  rw [promised, promised, ← paid, expected, expected, pays.ended]

theorem drop_answers {found : Received (Except TransportError Message)}
    (answers : Answers c.inlet found d.inlet) (rest : List Action) :
    (c.promised rest).drop found.answers = d.promised rest := by
  rw [promised_of_pays answers.pays]
  cases given : found.outcome? with
  | some result =>
    obtain rfl := Received.eq_item_of_outcome? given
    rfl
  | none =>
    rw [Option.toList_none, List.nil_append]
    cases ended : c.inlet.pipe.ended with
    | false =>
      have waits := answers.said
      rw [answers.spent given, ended] at waits
      rw [waits]
      rfl
    | true =>
      have spent := answers.spent given
      have same := promised_of_pays answers.pays rest
      rw [given, Option.toList_none, List.nil_append, promised, expected, ended, Bool.true_or,
        if_pos rfl] at same
      rw [← same, ← ended, spent, List.drop_nil]

/-- What is promised next when the actions have happened. -/
def due (c : Connection) (actions : List Action) : Received (Except TransportError Message) :=
  reply (c.inlet.pipe.ended || isOver actions)
    ((c.promised actions).drop (answered (run c actions).1))

theorem due_after {action : Action} (quiet : action ≠ .receive) (rest : List Action) :
    (c.after action).due rest = c.due (action :: rest) := by
  rw [due, due, promised_after quiet, over_after quiet, run_quiet quiet]

theorem due_receive (answers : Answers c.inlet c.receive.1 c.receive.2.2.inlet)
    (rest : List Action) : c.receive.2.2.due rest = c.due (.receive :: rest) := by
  have left : (c.promised (.receive :: rest)).drop c.receive.1.answers = _ :=
    drop_answers answers rest
  rw [due, due, run, answered, ← List.drop_drop, left, answers.pays.ended, isOver]

theorem due_new (outlet : Outlet) (actions : List Action) :
    due ⟨.new ⟨[], false⟩, outlet⟩ actions =
      answer .arriving (isOver actions) (arrivals actions)
        (answered (run ⟨.new ⟨[], false⟩, outlet⟩ actions).1) :=
  (answer_eq_reply ..).symm

/-- Up to the first fault, the next receive gives what is promised next. -/
theorem receive_run (alert : c.inlet.Alert) (actions : List Action)
    (clean : ∀ fault, .item (.error (.codec fault)) ∉ (run c actions).1) :
    (run c actions).2.receive.1 = c.due actions := by
  induction actions generalizing c with
  | nil =>
    rw [due, isOver, Bool.or_false, promised_nil]
    exact (receive_answers alert).said
  | cons action actions ih =>
    by_cases receives : action = .receive
    · subst receives
      have answers := receive_answers alert
      have harmless : ∀ fault, c.receive.1 ≠ .item (.error (.codec fault)) :=
        fun fault same => clean fault (same ▸ List.mem_cons_self)
      rw [← due_receive answers]
      exact ih (answers.alert harmless) fun fault later => clean fault (List.mem_cons_of_mem _ later)
    · rw [run_quiet receives] at clean ⊢
      rw [ih (alert_after alert receives) clean, due_after receives]

end

/-- For every stream, every way to cut it and every interleaving of what happens on a connection: as
long as no fault was received, the next receive gives what the lines that have arrived say to the
one who has been answered as often as this. So results come in the order of the lines, each once,
and then the end of the stream again and again; to wait in vain costs nothing. -/
theorem receives_what_arrived (outlet : Outlet) (actions : List Action)
    (clean : ∀ fault, .item (.error (.codec fault)) ∉ (run ⟨.new ⟨[], false⟩, outlet⟩ actions).1) :
    (run ⟨.new ⟨[], false⟩, outlet⟩ actions).2.receive.1 =
      answer .arriving (isOver actions) (arrivals actions)
        (answered (run ⟨.new ⟨[], false⟩, outlet⟩ actions).1) := by
  rw [← due_new]
  exact receive_run (Inlet.alert_new _) actions clean

/-- A broker that reports an error and hangs up: the error is received once, then the end. -/
theorem receives_error_then_end :
    let c : Connection := ⟨.new ⟨[], false⟩, ⟨[], false⟩⟩
    let actions := [.feed ((Frame.error "busy").line ++ [lineFeed]), .receive, .hangUp]
    (run c actions).1 = [.item (.error (.remote "busy"))] ∧
      (∀ fault, .item (.error (.codec fault)) ∉ (run c actions).1) ∧
      (run c actions).2.receive.1 = .item (.error .closed) := by
  intro c actions
  let line := (Frame.error "busy").line
  have said (atEnd : Bool) : results .arriving atEnd (line ++ lineFeed :: []) =
      [.error (.remote "busy")] := by
    have gist := verdict?_frame (f := .error "busy") (by decide)
    rw [results_cons (Frame.lineFeed_notMem_line _), gist, results_nil]
    rfl
  have first : (run c actions).1 = [.item (.error (.remote "busy"))] := by
    have next := receives_what_arrived ⟨[], false⟩ [.feed (line ++ [lineFeed])]
      (fun _ => List.not_mem_nil)
    rw [arrivals, arrivals, List.append_nil, answer, said] at next
    change [(c.feed (line ++ [lineFeed])).receive.1] = _
    exact congrArg (fun found => [found]) next
  have clean : ∀ fault, .item (.error (.codec fault)) ∉ (run c actions).1 := by simp [first]
  refine ⟨first, clean, ?_⟩
  have next := receives_what_arrived ⟨[], false⟩ actions clean
  rw [arrivals, arrivals, arrivals, List.append_nil, answer, said] at next
  rw [next, first]
  rfl

end Connection

/-- The bytes of a line are counted without its carriage return, and once it has ended. -/
def Limit.ended : Limit := ⟨fun piece => lineLimit < (withoutReturn piece).length, false⟩

theorem encode_spaces (n : Nat) :
    Utf8.encode (String.ofList (List.replicate n ' ')) = List.replicate n 32 := by
  rw [Utf8.encode, String.toList_ofList]
  induction n with
  | zero => rfl
  | succ n ih =>
    rw [List.replicate_succ, List.flatMap_cons, ih]
    rfl

/-- Spaces and a carriage return are skipped if only the spaces are counted. -/
theorem verdict?_spaces {n : Nat} (short : n ≤ lineLimit) :
    verdict? .ended (List.replicate n 32 ++ [13]) = none := by
  have text : withoutReturn (List.replicate n 32 ++ [13]) = List.replicate n 32 := by
    simp [withoutReturn]
  have decoded := Utf8.decode?_encode (String.ofList (List.replicate n ' '))
  rw [encode_spaces] at decoded
  have blank : Blank.allBlank (List.replicate n ' ') = true := by
    rw [Blank.allBlank, List.all_replicate]
    split <;> rfl
  have counted : Limit.ended.exceeded (List.replicate n 32 ++ [13]) = false := by
    simpa [Limit.ended, text] using short
  rw [verdict?, counted, text, decoded]
  simp only [Bool.false_eq_true, ↓reduceIte, String.toList_ofList, blank]

theorem lineFeed_notMem_spaces (n : Nat) : lineFeed ∉ List.replicate n 32 := by
  intro found
  exact absurd (List.eq_of_mem_replicate found) (by decide)

/-- The limit takes in the carriage return of a line, and a line reaches it before its end. -/
theorem limit_takes_in_return_and_beginning :
    let c : Connection := ⟨.new ⟨[], false⟩, ⟨[], false⟩⟩
    let returned := [.feed (List.replicate lineLimit 32 ++ 13 :: [lineFeed])]
    let begun := [.feed (List.replicate (lineLimit + 1) 32)]
    ((c.run returned).2.receive.1 = .item (.error (.codec .tooLong)) ∧
      answer .ended (isOver returned) (arrivals returned)
        (answered (c.run returned).1) = .pending) ∧
    ((c.run begun).2.receive.1 = .item (.error (.codec .tooLong)) ∧
      answer .ended (isOver begun) (arrivals begun)
        (answered (c.run begun).1) = .pending) := by
  intro c returned begun
  have free : lineFeed ∉ List.replicate lineLimit 32 ++ [13] := by
    intro found
    rcases List.mem_append.1 found with space | last
    · exact lineFeed_notMem_spaces _ space
    · exact absurd last (by decide)
  have spaces := lineFeed_notMem_spaces (lineLimit + 1)
  have bytes : List.replicate lineLimit 32 ++ 13 :: [lineFeed] ++ [] =
      List.replicate lineLimit 32 ++ [13] ++ [lineFeed] := by simp
  have given {bytes : List UInt8} {later : List (Except TransportError Message)}
      (first : results .arriving false (bytes ++ []) = .error (.codec .tooLong) :: later) :
      (c.run [.feed bytes]).2.receive.1 = .item (.error (.codec .tooLong)) := by
    have next := Connection.receive_run (c := c) (Inlet.alert_new _) [.feed bytes]
      fun _ => List.not_mem_nil
    have promised : c.promised [.feed bytes] = results .arriving false (bytes ++ []) := rfl
    rw [next, Connection.due, promised, first]
    rfl
  refine ⟨⟨?_, ?_⟩, ?_, ?_⟩
  · have first := results_long free (by simp) false [lineFeed]
    rw [← bytes] at first
    exact given first
  · change answer .ended false (_ ++ []) 0 = _
    rw [answer, bytes, results_cons free, verdict?_spaces (Nat.le_refl _), results,
      lines_free List.not_mem_nil]
    rfl
  · exact given (results_long spaces (by simp) false [])
  · change answer .ended false (_ ++ []) 0 = _
    rw [answer, List.append_nil, results, lines_free spaces]
    rfl

end ChannelAgent.Wire
