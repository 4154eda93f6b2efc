import ChannelAgent.Session.Basic

set_option autoImplicit false

namespace ChannelAgent.Session

structure Step (α : Type) where
  /-- Whether the call gives the stop signal at its start. -/
  stops : Bool
  /-- How long the call takes in milliseconds; without it, it never ends. -/
  takes : Option Nat
  result : α

inductive Reply
  | echo
  | body (b : Option Body)
  | failure (text : String)
  deriving DecidableEq, Repr

namespace Reply

def result (request : Option Body) : Reply → Except String (Option Body)
  | echo => .ok request
  | body b => .ok b
  | failure text => .error text

end Reply

/-- The steps to come. When a list is exhausted, a connect takes `connectDefault`, a receive never
ends, a send succeeds and a handler echoes. -/
structure Script where
  connects : List (Step (Except TransportError Unit))
  connectDefault : Step (Except TransportError Unit)
  receives : List (Step (Except TransportError Message))
  /-- The result of a send that succeeds is no failure. -/
  sends : List (Step (Option TransportError))
  /-- A handler may also wait for the stop signal before it returns. -/
  handles : List (Step Reply × Bool)

namespace Script

/-- Surroundings in which no connection can be opened. -/
def refusing (cause : TransportError) : Script :=
  { connects := [], connectDefault := ⟨false, some 0, .error cause⟩, receives := [], sends := []
    handles := [] }

def nextConnect (s : Script) : Step (Except TransportError Unit) :=
  s.connects.headD s.connectDefault

def nextReceive (s : Script) : Step (Except TransportError Message) :=
  s.receives.headD ⟨false, none, .error .closed⟩

def nextSend (s : Script) : Step (Option TransportError) := s.sends.headD ⟨false, some 0, none⟩

/-- The step of the next handler call, and whether it waits for the stop signal. -/
def nextHandle (s : Script) : Step Reply × Bool := s.handles.headD (⟨false, some 0, .echo⟩, false)

end Script

structure Run (β : Type) where
  state : State β
  now : Nat
  signal : Signal
  script : Script
  /-- The properties that every handler call is given. -/
  properties : CloudProperties
  /-- How many connections have been opened. -/
  opened : Nat
  /-- How many of them are still open. -/
  live : Nat
  /-- Whether the session waits for something that never comes. -/
  hung : Bool := false

abbrev Timed := Nat × Event

namespace Run

variable {β : Type}

/-- How many connections are open after some events. -/
def liveAfter (live : Nat) (events : List Event) : Nat :=
  events.foldl (fun n e =>
    match e with
    | .connected _ => n + 1
    | .dropped _ => n - 1
    | _ => n) live

/-- The run at an instant, after the session has gone on. -/
def goOn (r : Run β) (now : Nat) (next : State β × List Event) : Run β × List Timed :=
  ({ r with state := next.1, now := now, live := liveAfter r.live next.2 },
    next.2.map fun e => (now, e))

/-- Puts events of the present in front of what follows. -/
def after (r : Run β) (events : List Event) (next : Run β × List Timed) : Run β × List Timed :=
  (next.1, events.map (fun e => (r.now, e)) ++ next.2)

def ending (r : Run β) (takes : Option Nat) : Option Nat := takes.map fun ms => r.now + ms

/-- The end of a handler call, which may wait for the stop signal when its work is done. -/
def handlerEnding (r : Run β) (signal : Signal) : Option Nat :=
  match r.ending r.script.nextHandle.1.takes, r.script.nextHandle.2 with
  | some done, true => signal.firesAt.map (max done)
  | done, _ => done

def handle (r : Run β) (operationId : String) (request : Option Body) : Run β × List Timed :=
  let step := r.script.nextHandle.1
  let r' := { r with
    script := { r.script with handles := r.script.handles.tail }
    signal := r.signal.giveIf step.stops r.now }
  r.after [.handling request r.properties (r.signal.fired r.now)] <|
    match r.handlerEnding r'.signal with
    | none => ({ r' with hung := true }, [])
    | some done =>
      let result := step.result.result request
      r'.goOn done (r.state.onHandled operationId result, [.handled operationId result])

/-- The sending of a status message, which nothing cuts short. -/
def send (r : Run β) (operationId : String) (status : Message) : Run β × List Timed :=
  let step := r.script.nextSend
  let r' := { r with
    script := { r.script with sends := r.script.sends.tail }
    signal := r.signal.giveIf step.stops r.now }
  r.after [.sending (r.state.connection.getD 0) status] <|
    match r.ending step.takes with
    | none => ({ r' with hung := true }, [])
    | some done =>
      match step.result with
      | none => r'.goOn done (r.state.onSent, [])
      | some e => r'.goOn done (r.state.onSendFailed e, [.sendFailed operationId e])

def rest (r : Run β) (delay : Duration) : Run β × List Timed :=
  match r.signal.wait r.now (some (r.now + delay.pauseMillis)) with
  | .due at_ => r.goOn at_ (r.state.onRested, [])
  | .stopped at_ => r.goOn at_ r.state.finish
  | .never => ({ r with hung := true }, [])

def start (backoff : β) (now : Nat) (signal : Signal) (script : Script)
    (properties : CloudProperties) : Run β :=
  { state := .start backoff, now, signal, script, properties, opened := 0, live := 0 }

/-- The next run of the same session, with a stop signal and surroundings of its own. Of the run
before it keeps the backoff and the count of connections; none of those is open any more. -/
def again (r : Run β) (signal : Signal) (script : Script) (properties : CloudProperties) : Run β :=
  { r with state := .start r.state.backoff, signal, script, properties, live := 0, hung := false }

theorem le_of_ending {r : Run β} {takes : Option Nat} {done : Nat}
    (h : r.ending takes = some done) : r.now ≤ done := by
  obtain ⟨ms, -, rfl⟩ := Option.map_eq_some_iff.1 h
  exact Nat.le_add_right _ _

theorem le_of_handlerEnding {r : Run β} {signal : Signal} {done : Nat}
    (h : r.handlerEnding signal = some done) : r.now ≤ done := by
  unfold handlerEnding at h
  split at h
  · rename_i hd _
    obtain ⟨c, -, rfl⟩ := Option.map_eq_some_iff.1 h
    exact Nat.le_trans (le_of_ending hd) (Nat.le_max_left _ _)
  · exact le_of_ending h

/-- The session goes on at the end of a call. -/
theorem spans_goOn (r : Run β) {since now : Nat} (later : since ≤ now)
    (next : State β × List Event) : Spans since (r.goOn now next).2 (some (r.goOn now next).1.now) :=
  .instant later next.2

theorem spans_after (r : Run β) (events : List Event) {next : Run β × List Timed}
    (history : Spans r.now next.2 (some next.1.now)) :
    Spans r.now (r.after events next).2 (some (r.after events next).1.now) :=
  (Spans.instant (Nat.le_refl r.now) events).trans history

theorem spans_handle (r : Run β) (operationId : String) (request : Option Body) :
    Spans r.now (r.handle operationId request).2 (some (r.handle operationId request).1.now) := by
  apply spans_after
  split
  · exact .nil (Nat.le_refl r.now)
  · rename_i ends
    exact spans_goOn _ (le_of_handlerEnding ends) _

theorem spans_send (r : Run β) (operationId : String) (status : Message) :
    Spans r.now (r.send operationId status).2 (some (r.send operationId status).1.now) := by
  apply spans_after
  split
  · exact .nil (Nat.le_refl r.now)
  · rename_i ends
    split <;> exact spans_goOn _ (le_of_ending ends) _

theorem spans_rest (r : Run β) (delay : Duration) :
    Spans r.now (r.rest delay).2 (some (r.rest delay).1.now) := by
  unfold rest
  split
  · rename_i waits
    exact spans_goOn _ (Signal.le_of_due (Nat.le_add_right _ _) waits) _
  · rename_i stops
    exact spans_goOn _ (Signal.le_of_stopped stops) _
  · exact .nil (Nat.le_refl r.now)

variable [RetryPolicy β]

def connect (r : Run β) : Run β × List Timed :=
  let step := r.script.nextConnect
  let r' := { r with
    script := { r.script with connects := r.script.connects.tail }
    signal := r.signal.giveIf step.stops r.now }
  r.after [.connecting r.live] <|
    match r.ending step.takes with
    | none => ({ r' with hung := true }, [])
    | some done =>
      match step.result with
      | .ok () =>
        { r' with opened := r.opened + 1 }.goOn done
          (heard (.connected (r.opened + 1)) (r.state.onConnected (r.opened + 1)))
      | .error e => r'.goOn done (heard (.connectFailed e) (r.state.onConnectFailed e))

def receive (r : Run β) : Run β × List Timed :=
  let step := r.script.nextReceive
  let r' := { r with
    script := { r.script with receives := r.script.receives.tail }
    signal := r.signal.giveIf step.stops r.now }
  r.after [.receiving (r.state.connection.getD 0)] <|
    match r'.signal.wait r.now (r.ending step.takes) with
    | .never => ({ r' with hung := true }, [])
    | .stopped at_ => r'.goOn at_ r.state.finish
    | .due at_ =>
      match step.result with
      | .ok m => r'.goOn at_ (heard (.received m) (r.state.onReceived m))
      | .error e => r'.goOn at_ (heard (.receiveFailed e) (r.state.onReceiveFailed e))

/-- The session goes on by one call, unless it heeds the stop signal. -/
def step (r : Run β) : Run β × List Timed :=
  if r.signal.fired r.now && r.state.heedsStop then r.goOn r.now r.state.finish
  else
    match r.state.stage with
    | .connecting => r.connect
    | .listening => r.receive
    | .handling id request => r.handle id request
    | .acknowledging id status => r.send id status
    | .pausing delay => r.rest delay
    | .finished => (r, [])

/-- At most `n` steps and their events. -/
def steps : (n : Nat) → Run β → Run β × List Timed
  | 0, r => (r, [])
  | n + 1, r =>
    if r.hung || r.state.stage = .finished then (r, [])
    else
      let (r', events) := r.step
      let (last, more) := steps n r'
      (last, events ++ more)

/-- A run from its beginning, with a bound on its steps that the script and the stop signal give:
all lists are used up after four steps for each element, and a failed connect costs a pause. -/
def course (r : Run β) : Run β × List Timed :=
  let listed := r.script.connects.length + r.script.receives.length + r.script.sends.length +
    r.script.handles.length
  r.steps (8 * (listed + 1) + 2 * r.signal.patience r.now)

theorem spans_connect (r : Run β) : Spans r.now r.connect.2 (some r.connect.1.now) := by
  apply spans_after
  split
  · exact .nil (Nat.le_refl r.now)
  · rename_i ends
    split <;> exact spans_goOn _ (le_of_ending ends) _

theorem spans_receive (r : Run β) : Spans r.now r.receive.2 (some r.receive.1.now) := by
  apply spans_after
  split
  · exact .nil (Nat.le_refl r.now)
  · rename_i stops
    exact spans_goOn _ (Signal.le_of_stopped stops) _
  · rename_i waits
    split <;> exact spans_goOn _ (le_of_ending (Signal.eq_of_due waits)) _

/-- A step does not go back in time, and tells of nothing that is later than its end. -/
theorem spans_step (r : Run β) : Spans r.now r.step.2 (some r.step.1.now) := by
  unfold step
  split
  · exact spans_goOn r (Nat.le_refl r.now) _
  · split
    · exact r.spans_connect
    · exact r.spans_receive
    · exact r.spans_handle _ _
    · exact r.spans_send _ _
    · exact r.spans_rest _
    · exact .nil (Nat.le_refl r.now)

theorem spans_steps (n : Nat) (r : Run β) : Spans r.now (r.steps n).2 (some (r.steps n).1.now) := by
  induction n generalizing r with
  | zero => exact .nil (Nat.le_refl r.now)
  | succ n ih =>
    unfold steps
    split
    · exact .nil (Nat.le_refl r.now)
    · exact r.spans_step.trans (ih _)

theorem spans_course (r : Run β) : Spans r.now r.course.2 (some r.course.1.now) := spans_steps _ r

/-- A step gives the stop signal at its beginning or not at all. -/
theorem signal_step (r : Run β) : ∃ given, r.step.1.signal = r.signal.giveIf given r.now := by
  unfold step
  split
  · exact ⟨false, rfl⟩
  · split
    · unfold connect
      refine ⟨r.script.nextConnect.stops, ?_⟩
      simp only [after]
      split
      · rfl
      · split <;> rfl
    · unfold receive
      refine ⟨r.script.nextReceive.stops, ?_⟩
      simp only [after]
      split
      · rfl
      · rfl
      · split <;> rfl
    · unfold handle
      refine ⟨r.script.nextHandle.1.stops, ?_⟩
      simp only [after]
      split <;> rfl
    · unfold send
      refine ⟨r.script.nextSend.stops, ?_⟩
      simp only [after]
      split
      · rfl
      · split <;> rfl
    · unfold rest
      refine ⟨false, ?_⟩
      split <;> rfl
    · exact ⟨false, rfl⟩

theorem becomes_steps (n : Nat) (r : Run β) : r.signal.Becomes r.now (r.steps n).1.signal := by
  induction n generalizing r with
  | zero => exact .refl r.signal r.now
  | succ n ih =>
    unfold steps
    split
    · exact .refl r.signal r.now
    · obtain ⟨given, step⟩ := r.signal_step
      have first : r.signal.Becomes r.now r.step.1.signal :=
        step ▸ r.signal.becomes_giveIf given r.now
      exact first.trans (r.spans_step.onward _ rfl) (ih r.step.1)

theorem becomes_course (r : Run β) : r.signal.Becomes r.now r.course.1.signal := becomes_steps _ r

end Run

/-- Marks the instant at which the stop signal fires among the events of a run. -/
def markSignal (firesAt : Option Nat) (events : List Timed) : List Timed :=
  match firesAt with
  | none => events
  | some c =>
    let later := events.dropWhile fun e => e.1 < c
    if later.isEmpty then events
    else events.takeWhile (fun e => e.1 < c) ++ (c, .stopSignal) :: later

end ChannelAgent.Session
