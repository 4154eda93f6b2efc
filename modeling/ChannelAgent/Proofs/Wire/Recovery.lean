import ChannelAgent.Proofs.Wire.Stream

set_option autoImplicit false

namespace ChannelAgent.Wire

def Limit.boundless : Limit := ⟨fun _ => false, false⟩

/-- The whole lines of a stream: between line feeds, and the last one once the stream is over. -/
def wholeLines (atEnd : Bool) (bytes : List UInt8) : List (List UInt8) :=
  lines .boundless atEnd bytes

/-- The frame on a line, if the line is short enough, and text, and the text of a frame. -/
def frame? (piece : List UInt8) : Option Frame :=
  if piece.length ≤ lineLimit then
    (Utf8.decode? (withoutReturn piece)).bind fun line => (Frame.parse line).toOption
  else none

/-- The frames on the whole lines of a stream. -/
def frames (atEnd : Bool) (bytes : List UInt8) : List Frame :=
  (wholeLines atEnd bytes).filterMap frame?

def Received.frame? : Received (Except TransportError Message) → Option Frame
  | .item (.ok m) => some (.message m)
  | .item (.error (.remote text)) => some (.error text)
  | _ => none

/-- What is received for a line is the frame on it. -/
theorem frame?_of_verdict? {piece : List UInt8} {result : Except TransportError Message}
    {f : Frame} (verdict : verdict? .arriving piece = some result)
    (received : (Received.item result).frame? = some f) : frame? piece = some f := by
  unfold verdict? at verdict
  split at verdict
  · cases verdict
    cases received
  rename_i short
  split at verdict
  · cases verdict
    cases received
  rename_i line decoded
  split at verdict
  · cases verdict
  split at verdict <;> cases verdict <;> cases received <;>
    simp_all [frame?, Limit.arriving, Except.toOption]

theorem frame?_long {piece : List UInt8} (long : lineLimit < piece.length) : frame? piece = none :=
  if_neg (Nat.not_le.2 long)

/-- A last line that is too long before its end says nothing. -/
theorem frames_eq (atEnd : Bool) (bytes : List UInt8) :
    frames atEnd bytes = (lines .arriving atEnd bytes).filterMap frame? := by
  simp only [frames, wholeLines, lines, List.filterMap_append]
  congr 1
  cases (bytes.splitOn lineFeed).getLast? with
  | none => rfl
  | some piece =>
    cases atEnd with
    | true => simp
    | false =>
      by_cases long : lineLimit < piece.length <;>
        simp [Option.filter_some, Limit.boundless, Limit.arriving, long, frame?_long]

/-- The frames that are received for a stream are frames on its whole lines. -/
theorem frames_of_results (atEnd : Bool) (bytes : List UInt8) :
    List.Sublist ((results .arriving atEnd bytes).filterMap fun result =>
      (Received.item result).frame?) (frames atEnd bytes) := by
  rw [frames_eq, results, List.filterMap_filterMap]
  induction lines .arriving atEnd bytes with
  | nil => exact .slnil
  | cons piece pieces ih =>
    rw [List.filterMap_cons]
    cases said : (verdict? .arriving piece).bind fun result => (Received.item result).frame? with
    | none => exact ih.trans ((List.sublist_cons_self piece pieces).filterMap frame?)
    | some f =>
      obtain ⟨result, verdict, received⟩ := Option.bind_eq_some_iff.1 said
      rw [List.filterMap_cons_some (frame?_of_verdict? verdict received)]
      exact ih.cons_cons f

theorem Received.frame?_eq_outcome? (found : Received (Except TransportError Message)) :
    found.frame? = found.outcome?.bind fun result => (Received.item result).frame? := by
  unfold Received.outcome?
  split <;> rfl

/-- An inlet with nothing to search and nothing to read, that has looked for the end of the input as
well. -/
structure Inlet.Idle (i : Inlet) : Prop where
  calm : i.faulty = false
  searched : i.searchable = false
  read : i.pipe.unread = []
  whole : i.pipe.ended = i.ended

/-- An inlet that could do something next leaves no line unsearched. -/
theorem Inlet.Sane.alert {i : Inlet} (sane : i.Sane) (calm : i.faulty = false) (busy : ¬ i.Idle) :
    i.Alert :=
  ⟨sane, calm, fun searched read whole => absurd ⟨calm, searched, read, whole⟩ busy⟩

namespace Connection

section

variable {c : Connection}

/-- After a fault the end of the stream is reported, and the bytes held count as searched. -/
theorem receive_of_faulty (faulty : c.inlet.faulty = true) :
    c.receive.1 = .item (.error .closed) ∧
      c.receive.2.2.inlet = { c.inlet with searchable := false, faulty := false } := by
  simp only [receive, receiveFrom, Inlet.nextLine, faulty, ↓reduceIte, and_self]

theorem receive_of_idle (idle : c.inlet.Idle) :
    c.receive.1 = (if c.inlet.ended then .item (.error .closed) else .pending) ∧
      c.receive.2.2 = c := by
  have next : c.inlet.nextLine = (if c.inlet.ended then .closed else .pending, c.inlet) := by
    cases ended : c.inlet.ended <;>
      simp [Inlet.nextLine, Inlet.pull, Inlet.search, idle.calm, idle.searched, idle.read,
        idle.whole, ended]
  simp only [receive, receiveFrom, next]
  cases c.inlet.ended <;> exact ⟨rfl, rfl⟩

theorem receive_pays (sane : c.inlet.Sane) :
    c.inlet.Pays c.receive.1.outcome? c.receive.2.2.inlet := by
  cases calm : c.inlet.faulty with
  | true =>
    obtain ⟨closed, same⟩ := receive_of_faulty calm
    rw [closed, same]
    exact .rest ⟨sane.roomy, sane.anchored⟩ rfl rfl
  | false =>
    by_cases idle : c.inlet.Idle
    · obtain ⟨found, same⟩ := receive_of_idle idle
      have nothing : c.receive.1.outcome? = none := by
        rw [found]
        split <;> rfl
      rw [nothing, same]
      exact .rest sane rfl rfl
    · exact (receive_answers (sane.alert calm idle)).pays

theorem sane_run (sane : c.inlet.Sane) (actions : List Action) : (run c actions).2.inlet.Sane := by
  induction actions generalizing c with
  | nil => exact sane
  | cons action actions ih =>
    by_cases receives : action = .receive
    · subst receives
      exact ih (receive_pays sane).sane
    · rw [run_quiet receives]
      exact ih (sane_after sane receives)

/-- Whatever has happened, the results so far and those that are still promised are those that were
promised at first. -/
theorem promised_run (sane : c.inlet.Sane) (actions later : List Action) :
    (run c actions).1.filterMap Received.outcome? ++ (run c actions).2.promised later =
      c.promised (actions ++ later) := by
  induction actions generalizing c with
  | nil => rfl
  | cons action actions ih =>
    by_cases receives : action = .receive
    · subst receives
      have pays := receive_pays sane
      have first : c.promised (.receive :: actions ++ later) = _ :=
        promised_of_pays pays (actions ++ later)
      rw [first, ← ih pays.sane, ← List.append_assoc, run, List.filterMap_cons]
      cases c.receive.1.outcome? <;> rfl
    · rw [run_quiet receives, ih (sane_after sane receives), promised_after receives]
      rfl

theorem over_run (sane : c.inlet.Sane) (actions later : List Action) :
    ((run c actions).2.inlet.pipe.ended || isOver later) =
      (c.inlet.pipe.ended || isOver (actions ++ later)) := by
  induction actions generalizing c with
  | nil => rfl
  | cons action actions ih =>
    by_cases receives : action = .receive
    · subst receives
      have pays := receive_pays sane
      have next := ih pays.sane
      rw [pays.ended] at next
      exact next
    · rw [run_quiet receives, ih (sane_after sane receives), over_after receives]
      rfl

/-- Only a receive forgets a fault. -/
theorem faulty_run {actions : List Action} (waits : .receive ∉ actions) :
    (run c actions).2.inlet.faulty = c.inlet.faulty := by
  induction actions generalizing c with
  | nil => rfl
  | cons action actions ih =>
    obtain ⟨other, later⟩ := not_or.1 (mt List.mem_cons.2 waits)
    have quiet : action ≠ .receive := Ne.symm other
    rw [run_quiet quiet, ih later]
    rcases inlet_after quiet with same | ⟨-, bytes, same⟩ | same <;> rw [same]

/-- Once the end was met, there is nothing but the end. -/
theorem receive_run_of_ended (idle : c.inlet.Idle) (ended : c.inlet.ended = true)
    (actions : List Action) : (run c actions).2.receive.1 = .item (.error .closed) := by
  induction actions generalizing c with
  | nil =>
    rw [run, (receive_of_idle idle).1, if_pos ended]
  | cons action actions ih =>
    by_cases receives : action = .receive
    · subst receives
      rw [run, (receive_of_idle idle).2]
      exact ih idle ended
    · have whole : c.inlet.pipe.ended = true := idle.whole.trans ended
      rw [run_quiet receives]
      rcases inlet_after (c := c) receives with same | ⟨running, -⟩ | same
      · exact ih (same ▸ idle) (same ▸ ended)
      · exact absurd whole (by simp [running])
      · have still : (c.after action).inlet = c.inlet := by rw [same, ← whole]
        exact ih (still ▸ idle) (still ▸ ended)

/-- Whether there is something that makes the connection look at its bytes again: bytes that are not
taken in yet or arrive, or the end of the input. -/
def stirred (c : Connection) (actions : List Action) : Bool :=
  !c.inlet.pipe.unread.isEmpty || c.inlet.pipe.ended || !(arrivals actions).isEmpty || isOver actions

theorem stirred_after {action : Action} (quiet : action ≠ .receive) (rest : List Action) :
    (c.after action).stirred rest = c.stirred (action :: rest) := by
  cases action with
  | feed bytes =>
    cases running : c.inlet.pipe.ended with
    | true => simp [stirred, after, feed, running]
    | false =>
      cases unread : c.inlet.pipe.unread <;> cases bytes <;>
        simp [stirred, after, feed, arrivals, isOver, running, unread]
  | endInput => simp [stirred, after, endInput, isOver]
  | hangUp => simp [stirred, after, hangUp, isOver]
  | send m =>
    rw [stirred, stirred, c.inlet_send m]
    rfl
  | receive => exact absurd rfl quiet

theorem stirred_of_busy (calm : c.inlet.faulty = false) (searched : c.inlet.searchable = false)
    (running : c.inlet.ended = false) (busy : ¬ c.inlet.Idle) (actions : List Action) :
    c.stirred actions = true := by
  cases stirs : c.stirred actions with
  | true => rfl
  | false =>
    simp only [stirred, Bool.or_eq_false_iff, Bool.not_eq_false', List.isEmpty_iff] at stirs
    exact absurd ⟨calm, searched, stirs.1.1.1, stirs.1.1.2.trans running.symm⟩ busy

/-- Bytes that were searched, or count as searched, are not looked at before more happens. -/
theorem receive_run_of_searched (sane : c.inlet.Sane) (calm : c.inlet.faulty = false)
    (searched : c.inlet.searchable = false) (running : c.inlet.ended = false)
    (actions : List Action) (clean : ∀ fault, .item (.error (.codec fault)) ∉ (run c actions).1) :
    (run c actions).2.receive.1 = if c.stirred actions then c.due actions else .pending := by
  induction actions generalizing c with
  | nil =>
    by_cases idle : c.inlet.Idle
    · have rests : c.stirred [] = false := by
        simp [stirred, idle.read, idle.whole, running, arrivals, isOver]
      rw [run, (receive_of_idle idle).1, rests, running]
      rfl
    · rw [if_pos (stirred_of_busy calm searched running idle []), receive_run (sane.alert calm idle) [] clean]
  | cons action actions ih =>
    by_cases receives : action = .receive
    · subst receives
      by_cases idle : c.inlet.Idle
      · obtain ⟨found, same⟩ := receive_of_idle idle
        have unmoved : run c (.receive :: actions) =
            (.pending :: (run c actions).1, (run c actions).2) := by
          simp only [run, same, found, running, Bool.false_eq_true, ↓reduceIte]
        have due : c.due (.receive :: actions) = c.due actions := by
          rw [Connection.due, Connection.due, unmoved, answered, Received.answers, Nat.zero_add]
          rfl
        rw [unmoved] at clean ⊢
        rw [due]
        exact ih sane calm searched running fun fault later =>
          clean fault (List.mem_cons_of_mem _ later)
      · rw [if_pos (stirred_of_busy calm searched running idle _)]
        exact receive_run (sane.alert calm idle) _ clean
    · rw [run_quiet receives] at clean ⊢
      rw [← due_after receives, ← stirred_after receives]
      have kept := inlet_after (c := c) receives
      refine ih (sane_after sane receives) ?_ ?_ ?_ clean <;>
        rcases kept with same | ⟨-, bytes, same⟩ | same <;> rw [same] <;> assumption

/-- A connection remembers a fault until it is received from again. -/
theorem faulty_run_of_failed (start : c.inlet.Sane) {actions meanwhile : List Action}
    {fault : LineFault} (failed : (run c actions).2.receive.1 = .item (.error (.codec fault)))
    (waits : .receive ∉ meanwhile) :
    (run c (actions ++ .receive :: meanwhile)).2.inlet.faulty = true := by
  have noted := (receive_pays (sane_run start actions)).noted fault (by rw [failed]; rfl)
  have kept := faulty_run (c := (run c actions).2.receive.2.2) waits
  simp only [run_append, run]
  exact kept.trans noted

/-- Behind the end of the stream that a fault costs, receiving goes on where it was. -/
theorem receive_run_resumed (start : c.inlet.Sane) {before : List Action}
    (faulty : (run c before).2.inlet.faulty = true) {later : List Action}
    (clean : ∀ fault,
      .item (.error (.codec fault)) ∉ (run (run c before).2.receive.2.2 later).1) :
    let resumed := (run c before).2.receive.2.2
    (run resumed later).2.receive.1 =
      if resumed.inlet.ended then .item (.error .closed)
      else if resumed.stirred later then
        reply (c.inlet.pipe.ended || isOver (before ++ later))
          ((c.promised (before ++ later)).drop
            (((run c before).1.filterMap Received.outcome?).length +
              answered (run resumed later).1))
      else .pending := by
  intro resumed
  have sane := sane_run start before
  obtain ⟨closed, same⟩ := receive_of_faulty faulty
  have pays := receive_pays sane
  have calm : resumed.inlet.faulty = false := by rw [show resumed.inlet = _ from same]
  have searched : resumed.inlet.searchable = false := by rw [show resumed.inlet = _ from same]
  cases ended : resumed.inlet.ended with
  | true =>
    obtain ⟨whole, read⟩ := pays.sane.anchored ended
    exact receive_run_of_ended ⟨calm, searched, read, whole.trans ended.symm⟩ ended later
  | false =>
    have promised : c.promised (before ++ later) =
        (run c before).1.filterMap Received.outcome? ++ resumed.promised later := by
      rw [← promised_run start before later, promised_of_pays pays later, closed]
      rfl
    have past : (resumed.inlet.pipe.ended || isOver later) =
        (c.inlet.pipe.ended || isOver (before ++ later)) := by
      rw [← over_run start before later, ← pays.ended]
    rw [receive_run_of_searched pays.sane calm searched ended later clean, due, past, promised,
      ← List.drop_drop, List.drop_left]
    rfl

end

/-- For every stream, every way to cut it and every interleaving of what happens on a connection,
after faults and after the end as before: the messages and broker errors that are received are
frames on whole lines of the stream, short enough and text, in the order of these lines and each
once. So no part of a line that is too long is taken for a frame. All that is received but the end
of the stream is what the first lines come to, and none of them is left out. After a fault the end
of the stream is reported once. If the input had been read to its end by then, nothing else follows;
otherwise receiving goes on with the line behind the faulty one, as soon as there are bytes to take
in or the input ends. -/
theorem receives_frames_of_lines (outlet : Outlet) (actions : List Action) :
    let c : Connection := ⟨.new ⟨[], false⟩, outlet⟩
    List.Sublist ((run c actions).1.filterMap Received.frame?)
        (frames (isOver actions) (arrivals actions)) ∧
      (run c actions).1.filterMap Received.outcome? <+:
        results .arriving (isOver actions) (arrivals actions) ∧
      ∀ fault, (run c actions).2.receive.1 = .item (.error (.codec fault)) →
        ∀ meanwhile, .receive ∉ meanwhile →
          let before := actions ++ .receive :: meanwhile
          let resumed := (run c before).2.receive.2.2
          (run c before).2.receive.1 = .item (.error .closed) ∧
            (resumed.inlet.ended = true → isOver before = true ∧ resumed.inlet.pipe.unread = []) ∧
            ∀ later, (∀ fault, .item (.error (.codec fault)) ∉ (run resumed later).1) →
              (run resumed later).2.receive.1 =
                if resumed.inlet.ended then .item (.error .closed)
                else if resumed.stirred later then
                  answer .arriving (isOver (before ++ later)) (arrivals (before ++ later))
                    (((run c before).1.filterMap Received.outcome?).length +
                      answered (run resumed later).1)
                else .pending := by
  intro c
  have start : c.inlet.Sane := (Inlet.alert_new _).toSane
  have all (actions : List Action) : (run c actions).1.filterMap Received.outcome? <+:
      results .arriving (isOver actions) (arrivals actions) := by
    have accounted := promised_run start actions []
    rw [List.append_nil] at accounted
    exact ⟨_, accounted⟩
  refine ⟨?_, all actions, fun fault failed meanwhile waits => ?_⟩
  · have received : (run c actions).1.filterMap Received.frame? =
        ((run c actions).1.filterMap Received.outcome?).filterMap fun result =>
          (Received.item result).frame? := by
      rw [List.filterMap_filterMap]
      exact congrArg (List.filterMap · (run c actions).1) (funext Received.frame?_eq_outcome?)
    rw [received]
    exact ((all actions).sublist.filterMap _).trans (frames_of_results _ _)
  · intro before resumed
    let d := (run c before).2
    have sane : d.inlet.Sane := sane_run start before
    have faulty : d.inlet.faulty = true := faulty_run_of_failed start failed waits
    have pays := receive_pays sane
    refine ⟨(receive_of_faulty faulty).1, fun ended => ?_, fun later clean => ?_⟩
    · obtain ⟨whole, read⟩ := pays.sane.anchored ended
      have past := over_run start before []
      rw [List.append_nil, isOver, Bool.or_false, ← pays.ended, whole] at past
      exact ⟨past.symm, read⟩
    · rw [receive_run_resumed start faulty clean, answer_eq_reply]
      rfl

/-- A line that is no text costs two receives; the frame behind it is received at the end of the
input. -/
example :
    (run ⟨.new ⟨[], false⟩, ⟨[], false⟩⟩
        [.feed (255 :: lineFeed :: (Frame.error "busy").line), .receive, .receive, .receive,
          .endInput, .receive]).1.map Received.frame? =
      [none, none, none, some (.error "busy")] := by
  decide +kernel

end Connection

end ChannelAgent.Wire
