import ChannelAgent.Proofs.Session.Connection

set_option autoImplicit false

namespace ChannelAgent.Session

variable {β : Type}

/-- Another way to number connections and another content of messages, alike in all that a session
looks at. -/
structure Translation where
  /-- How many connections came before. -/
  offset : Nat
  body : Option Body → Option Body
  /-- What is received instead of a message. -/
  message : Message → Message
  reply : Reply → Reply
  body_none : body none = none
  hasLabels_message (m : Message) : (message m).hasLabels = m.hasLabels
  operationId?_message (m : Message) : (message m).operationId? = m.operationId?
  body_message (m : Message) : (message m).body = body m.body
  reply_echo : reply .echo = .echo
  result_reply (p : Reply) (request : Option Body) :
    (reply p).result (body request) = (p.result request).map body

/-- A session works on a connection only when it has one. -/
def Run.Attached (r : Run β) : Prop :=
  r.state.stage.attached = true → r.state.connection.isSome = true

theorem Run.Attached.turn [RetryPolicy β] {r next : Run β} {events : List Timed} (turn : Turn r next events)
    (attached : r.Attached) : next.Attached := by
  cases turn with
  | heeded | refused | interrupted | unlabelled | unidentified | lost | roused | retrying =>
    exact nofun
  | endless => exact attached
  | connected => exact fun _ => rfl
  | requested stage | handled stage | sent stage | unsent stage =>
    exact fun _ => attached (by rw [stage]; rfl)
  | resumed _ _ connected => exact fun _ => by rw [connected]; rfl

namespace Translation

variable (T : Translation)

/-- A status message keeps its labels. -/
def status (m : Message) : Message := { m with body := T.body m.body }

def event : Event → Event
  | .connected connection => .connected (connection + T.offset)
  | .receiving connection => .receiving (connection + T.offset)
  | .received m => .received (T.message m)
  | .handling request properties stopping => .handling (T.body request) properties stopping
  | .handled id result => .handled id (result.map T.body)
  | .sending connection m => .sending (connection + T.offset) (T.status m)
  | .dropped connection => .dropped (connection + T.offset)
  | e => e

def events (l : List Timed) : List Timed := l.map fun e => (e.1, T.event e.2)

def stage : Stage → Stage
  | .handling id request => .handling id (T.body request)
  | .acknowledging id status => .acknowledging id (T.status status)
  | s => s

def state (s : State β) : State β :=
  { s with stage := T.stage s.stage, connection := s.connection.map (· + T.offset) }

/-- A move of a session: its next state and its events. -/
def move (next : State β × List Event) : State β × List Event :=
  (T.state next.1, next.2.map T.event)

def received (step : Step (Except TransportError Message)) : Step (Except TransportError Message) :=
  { step with result := step.result.map T.message }

def handled (step : Step Reply × Bool) : Step Reply × Bool :=
  ({ step.1 with result := T.reply step.1.result }, step.2)

def script (s : Script) : Script :=
  { s with receives := s.receives.map T.received, handles := s.handles.map T.handled }

def run (r : Run β) : Run β :=
  { r with state := T.state r.state, script := T.script r.script, opened := r.opened + T.offset }

@[simp] theorem events_append (first second : List Timed) :
    T.events (first ++ second) = T.events first ++ T.events second := List.map_append

@[simp] theorem state_run (r : Run β) : (T.run r).state = T.state r.state := rfl

@[simp] theorem now_run (r : Run β) : (T.run r).now = r.now := rfl

@[simp] theorem signal_run (r : Run β) : (T.run r).signal = r.signal := rfl

@[simp] theorem script_run (r : Run β) : (T.run r).script = T.script r.script := rfl

@[simp] theorem ending_run (r : Run β) (takes : Option Nat) :
    (T.run r).ending takes = r.ending takes := rfl

theorem heedsStop_state (s : State β) : (T.state s).heedsStop = s.heedsStop := by
  obtain ⟨stage, connection, backoff, lastFailure⟩ := s
  cases stage <;> rfl

theorem finished_stage (s : Stage) : T.stage s = .finished ↔ s = .finished := by
  cases s <;> simp [stage]

theorem going_run (r : Run β) : (T.run r).Going ↔ r.Going := by
  have finished := T.finished_stage r.state.stage
  exact and_congr_right fun _ => not_congr finished

section

variable (s : State β)

theorem finish_state : (T.state s).finish = T.move s.finish := by
  obtain ⟨stage, _ | connection, backoff, lastFailure⟩ := s <;> rfl

theorem acknowledgement_map (operationId : String) (result : Except String (Option Body)) :
    State.acknowledgement operationId (result.map T.body) =
      T.status (State.acknowledgement operationId result) := by
  cases result with
  | ok response => rfl
  | error text =>
    have bodiless : (Message.status operationId .failed none).body = T.body none := T.body_none.symm
    exact congrArg (Message.mk _) bodiless

theorem onHandled_state (operationId : String) (result : Except String (Option Body)) :
    ((T.state s).onHandled operationId (result.map T.body),
        [Event.handled operationId (result.map T.body)]) =
      T.move (s.onHandled operationId result, [.handled operationId result]) := by
  unfold State.onHandled
  rw [acknowledgement_map]
  rfl

theorem onSent_state : ((T.state s).onSent, []) = T.move (s.onSent, []) := rfl

theorem onSendFailed_state (operationId : String) (cause : TransportError) :
    ((T.state s).onSendFailed cause, [Event.sendFailed operationId cause]) =
      T.move (s.onSendFailed cause, [.sendFailed operationId cause]) := rfl

theorem onRested_state : ((T.state s).onRested, []) = T.move (s.onRested, []) := by
  obtain ⟨stage, _ | connection, backoff, lastFailure⟩ := s <;> rfl

variable [RetryPolicy β]

theorem onConnected_state (connection : Nat) :
    heard (.connected (connection + T.offset))
        ((T.state s).onConnected (connection + T.offset)) =
      T.move (heard (.connected connection) (s.onConnected connection)) := rfl

theorem onConnectFailed_state (cause : TransportError) :
    heard (.connectFailed cause) ((T.state s).onConnectFailed cause) =
      T.move (heard (.connectFailed cause) (s.onConnectFailed cause)) := rfl

theorem onReceiveFailed_state (cause : TransportError) :
    heard (.receiveFailed cause) ((T.state s).onReceiveFailed cause) =
      T.move (heard (.receiveFailed cause) (s.onReceiveFailed cause)) := by
  obtain ⟨stage, _ | connection, backoff, lastFailure⟩ := s <;> rfl

theorem onReceived_state (m : Message) :
    heard (.received (T.message m)) ((T.state s).onReceived (T.message m)) =
      T.move (heard (.received m) (s.onReceived m)) := by
  unfold State.onReceived
  rw [T.hasLabels_message, T.operationId?_message, T.body_message]
  split
  · obtain ⟨stage, _ | connection, backoff, lastFailure⟩ := s <;> rfl
  · split <;> rfl

end

/-- The connection that an attached session names is the same one, numbered on. -/
theorem getD_state {s : State β} (connected : s.connection.isSome = true) :
    (T.state s).connection.getD 0 = s.connection.getD 0 + T.offset := by
  obtain ⟨connection, open_⟩ := Option.isSome_iff_exists.1 connected
  simp [state, open_]

section

variable (s : Script)

theorem nextConnect_script : (T.script s).nextConnect = s.nextConnect := rfl

theorem nextSend_script : (T.script s).nextSend = s.nextSend := rfl

theorem nextReceive_script : (T.script s).nextReceive = T.received s.nextReceive := by
  obtain ⟨connects, connectDefault, _ | ⟨step, receives⟩, sends, handles⟩ := s <;> rfl

theorem nextHandle_script : (T.script s).nextHandle = T.handled s.nextHandle := by
  obtain ⟨connects, connectDefault, receives, sends, _ | ⟨step, handles⟩⟩ := s
  · simp [script, handled, Script.nextHandle, T.reply_echo]
  · rfl

theorem receives_tail : { T.script s with receives := (T.script s).receives.tail } =
    T.script { s with receives := s.receives.tail } := by
  simp [script, List.map_tail]

theorem handles_tail : { T.script s with handles := (T.script s).handles.tail } =
    T.script { s with handles := s.handles.tail } := by
  simp [script, List.map_tail]

end

theorem liveAfter_map (live : Nat) (events : List Event) :
    Run.liveAfter live (events.map T.event) = Run.liveAfter live events := by
  unfold Run.liveAfter
  rw [List.foldl_map]
  congr 1
  funext live e
  cases e <;> rfl

theorem goOn_run (r : Run β) (now : Nat) (next : State β × List Event) :
    (T.run r).goOn now (T.move next) = (r.goOn now next).map T.run T.events := by
  simp only [Run.goOn, Prod.map, run, move, liveAfter_map, events, List.map_map]
  rfl

theorem after_run (r : Run β) (before : List Event) (course : Run β × List Timed) :
    (T.run r).after (before.map T.event) (course.map T.run T.events) =
      (r.after before course).map T.run T.events := by
  simp only [Run.after, Prod.map, events, List.map_append, List.map_map]
  rfl

theorem handlerEnding_run (r : Run β) (signal : Signal) :
    (T.run r).handlerEnding signal = r.handlerEnding signal := by
  unfold Run.handlerEnding
  rw [script_run, nextHandle_script]
  rfl

theorem handle_run (r : Run β) (operationId : String) (request : Option Body) :
    (T.run r).handle operationId (T.body request) =
      (r.handle operationId request).map T.run T.events := by
  unfold Run.handle
  rw [← after_run]
  simp only [handlerEnding_run, script_run, nextHandle_script, handled, handles_tail, signal_run,
    now_run, state_run, T.result_reply]
  refine congrArg ((T.run r).after _) ?_
  cases r.handlerEnding (r.signal.giveIf r.script.nextHandle.1.stops r.now) with
  | none => rfl
  | some t =>
    simp only [onHandled_state, ← goOn_run]
    rfl

theorem send_run {r : Run β} (operationId : String) (status : Message)
    (connected : r.state.connection.isSome = true) :
    (T.run r).send operationId (T.status status) =
      (r.send operationId status).map T.run T.events := by
  unfold Run.send
  rw [← after_run]
  simp only [script_run, nextSend_script, signal_run, now_run, ending_run, state_run,
    T.getD_state connected]
  refine congrArg ((T.run r).after _) ?_
  cases r.ending r.script.nextSend.takes with
  | none => rfl
  | some t =>
    cases r.script.nextSend.result with
    | none =>
      simp only [onSent_state, ← goOn_run]
      rfl
    | some cause =>
      simp only [onSendFailed_state, ← goOn_run]
      rfl

theorem rest_run (r : Run β) (delay : Duration) :
    (T.run r).rest delay = (r.rest delay).map T.run T.events := by
  unfold Run.rest
  rw [signal_run, now_run, state_run]
  cases r.signal.wait r.now (some (r.now + delay.pauseMillis)) with
  | due t =>
    simp only [onRested_state, goOn_run]
  | stopped t =>
    simp only [finish_state, goOn_run]
  | never => rfl

variable [RetryPolicy β]

theorem connect_run (r : Run β) : (T.run r).connect = r.connect.map T.run T.events := by
  have opened : (T.run r).opened + 1 = r.opened + 1 + T.offset := Nat.add_right_comm ..
  unfold Run.connect
  rw [← after_run]
  simp only [script_run, nextConnect_script, signal_run, now_run, ending_run, state_run, opened]
  refine congrArg ((T.run r).after _) ?_
  cases r.ending r.script.nextConnect.takes with
  | none => rfl
  | some t =>
    cases r.script.nextConnect.result with
    | error cause =>
      simp only [onConnectFailed_state, ← goOn_run]
      rfl
    | ok _ =>
      simp only [onConnected_state, ← goOn_run]
      rfl

theorem receive_run {r : Run β} (connected : r.state.connection.isSome = true) :
    (T.run r).receive = r.receive.map T.run T.events := by
  unfold Run.receive
  rw [← after_run]
  simp only [script_run, nextReceive_script, received, receives_tail, signal_run, now_run, ending_run,
    state_run, T.getD_state connected]
  refine congrArg ((T.run r).after _) ?_
  cases (r.signal.giveIf r.script.nextReceive.stops r.now).wait r.now
      (r.ending r.script.nextReceive.takes) with
  | never => rfl
  | stopped t =>
    simp only [finish_state, ← goOn_run]
    rfl
  | due t =>
    cases r.script.nextReceive.result with
    | error cause =>
      simp only [Except.map, onReceiveFailed_state, ← goOn_run]
      rfl
    | ok m =>
      simp only [Except.map, onReceived_state, ← goOn_run]
      rfl

/-- A step does not depend on what a translation changes. -/
theorem step_run {r : Run β} (attached : r.Attached) :
    (T.run r).step = r.step.map T.run T.events := by
  have stage : (T.state r.state).stage = T.stage r.state.stage := rfl
  unfold Run.step
  rw [signal_run, now_run, state_run, heedsStop_state, stage]
  split
  · rw [finish_state, goOn_run]
  · cases here : r.state.stage with
    | connecting => exact T.connect_run r
    | listening => exact T.receive_run (attached (by rw [here]; rfl))
    | handling id request => exact T.handle_run r id request
    | acknowledging id status => exact T.send_run id status (attached (by rw [here]; rfl))
    | pausing delay => exact T.rest_run r delay
    | finished => rfl

/-- Nor does a run. -/
theorem steps_run {r : Run β} (n : Nat) (attached : r.Attached) :
    (T.run r).steps n = (r.steps n).map T.run T.events := by
  induction n generalizing r with
  | zero => rfl
  | succ n ih =>
    by_cases going : r.Going
    · have goes : (T.run r).Going := (T.going_run r).2 going
      rw [Run.steps_succ goes, Run.steps_succ going, T.step_run attached]
      simp only [Prod.map, ih (attached.turn (Run.turn going)), events_append]
    · have stays : ¬ (T.run r).Going := fun goes => going ((T.going_run r).1 goes)
      rw [Run.steps_of_not_going stays, Run.steps_of_not_going going]
      rfl

end Translation

end ChannelAgent.Session
