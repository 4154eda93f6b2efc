import ChannelAgent.Proofs.Signal
import ChannelAgent.Proofs.Trace
import ChannelAgent.Session.Script

set_option autoImplicit false

namespace ChannelAgent.Session

variable {β : Type}

namespace Run

/-- The connection that a run works on, as its events name it. -/
def current (r : Run β) : Nat := r.state.connection.getD 0

/-- What is said of the open connection, if there is one, when it is dropped. -/
def parting (r : Run β) : List Event := (r.state.connection.map Event.dropped).toList

/-- The run is neither finished nor stuck in a call that never ends. -/
def Going (r : Run β) : Prop := r.hung = false ∧ r.state.stage ≠ .finished

instance (r : Run β) : Decidable r.Going := inferInstanceAs (Decidable (_ ∧ _))

/-- The stop signal has fired by the present of the run. -/
def Stopping (r : Run β) : Prop := r.signal.fired r.now = true

instance (r : Run β) : Decidable r.Stopping := inferInstanceAs (Decidable (_ = true))

def call? (r : Run β) : Option Event :=
  match r.state.stage with
  | .connecting => some (.connecting r.live)
  | .listening => some (.receiving r.current)
  | .handling _ request => some (.handling request r.properties (r.signal.fired r.now))
  | .acknowledging _ status => some (.sending r.current status)
  | .pausing _ | .finished => none

/-- The stop signal once the call that comes next has begun. -/
def signalled (r : Run β) : Signal :=
  match r.state.stage with
  | .connecting => r.signal.giveIf r.script.nextConnect.stops r.now
  | .listening => r.signal.giveIf r.script.nextReceive.stops r.now
  | .handling .. => r.signal.giveIf r.script.nextHandle.1.stops r.now
  | .acknowledging .. => r.signal.giveIf r.script.nextSend.stops r.now
  | .pausing _ | .finished => r.signal

/-- The script once the call that comes next has taken its step. -/
def spent (r : Run β) : Script :=
  match r.state.stage with
  | .connecting => { r.script with connects := r.script.connects.tail }
  | .listening => { r.script with receives := r.script.receives.tail }
  | .handling .. => { r.script with handles := r.script.handles.tail }
  | .acknowledging .. => { r.script with sends := r.script.sends.tail }
  | .pausing _ | .finished => r.script

/-- The instant at which the call or the pause that comes next ends by itself. -/
def ends (r : Run β) : Option Nat :=
  match r.state.stage with
  | .connecting => r.ending r.script.nextConnect.takes
  | .listening => r.ending r.script.nextReceive.takes
  | .handling .. => r.handlerEnding r.signalled
  | .acknowledging .. => r.ending r.script.nextSend.takes
  | .pausing delay => some (r.now + delay.pauseMillis)
  | .finished => none

/-- Whether the stop signal lets a wait of a run go on to its end at an instant. -/
def Reaches (r : Run β) (t : Nat) : Prop :=
  r.ends = some t ∧ ∀ c, r.signalled.firesAt = some c → t ≤ r.now ∨ t < c

/-- The stop signal fires at an instant at which a wait of a run has not ended. -/
def Misses (r : Run β) (c : Nat) : Prop :=
  r.signalled.firesAt = some c ∧ ∀ t, r.ends = some t → r.now < t ∧ c ≤ t

end Run

def Run.reply (r : Run β) (request : Option Body) : Except String (Option Body) :=
  r.script.nextHandle.1.result.result request

def State.delay [RetryPolicy β] (s : State β) : Duration := (RetryPolicy.next s.backoff).1

/-- What a step that is taken comes to: the next run and the events on the way. What a call comes to
is the result of its step of the script. -/
inductive Turn [RetryPolicy β] (r : Run β) : Run β → List Timed → Prop
  /-- The stop signal is heeded between two calls. -/
  | heeded (stopping : r.Stopping) (heeds : r.state.heedsStop = true) :
      Turn r
        { r with
          state := { r.state with stage := .finished, connection := none }
          live := r.live - r.state.connection.toList.length }
        ((r.now, .finished) :: r.parting.map fun e => (r.now, e))
  | endless {begun : Event} (going : r.Stopping → r.state.heedsStop = false)
      (call : r.call? = some begun) (never : r.ends = none)
      (silent : r.state.stage = .listening → r.signalled.firesAt = none) :
      Turn r { r with signal := r.signalled, script := r.spent, hung := true } [(r.now, begun)]
  | connected {t : Nat} (stage : r.state.stage = .connecting) (quiet : ¬ r.Stopping)
      (ends : r.ends = some t) (result : r.script.nextConnect.result = .ok ()) :
      Turn r
        { r with
          state := { r.state with
            stage := .listening, connection := some (r.opened + 1)
            backoff := RetryPolicy.reset r.state.backoff }
          now := t, signal := r.signalled, script := r.spent, opened := r.opened + 1
          live := r.live + 1 }
        [(r.now, .connecting r.live), (t, .connected (r.opened + 1)), (t, .reset)]
  | refused {t : Nat} {cause : TransportError} (stage : r.state.stage = .connecting)
      (quiet : ¬ r.Stopping) (ends : r.ends = some t)
      (result : r.script.nextConnect.result = .error cause) :
      Turn r
        { r with
          state := { r.state with
            stage := .pausing r.state.delay, backoff := (RetryPolicy.next r.state.backoff).2
            lastFailure := some (.connect cause) }
          now := t, signal := r.signalled, script := r.spent }
        [(r.now, .connecting r.live), (t, .connectFailed cause), (t, .pausing r.state.delay)]
  | interrupted {c : Nat} (stage : r.state.stage = .listening) (quiet : ¬ r.Stopping)
      (misses : r.Misses c) (le : r.now ≤ c) :
      Turn r
        { r with
          state := { r.state with stage := .finished, connection := none }
          now := c, signal := r.signalled, script := r.spent
          live := r.live - r.state.connection.toList.length }
        ((r.now, .receiving r.current) :: (c, .finished) :: r.parting.map fun e => (c, e))
  /-- A message without labels costs the connection. -/
  | unlabelled {t : Nat} {m : Message} (stage : r.state.stage = .listening) (quiet : ¬ r.Stopping)
      (reaches : r.Reaches t) (result : r.script.nextReceive.result = .ok m)
      (bare : m.hasLabels = false) :
      Turn r
        { r with
          state := { r.state with
            stage := .pausing r.state.delay, connection := none
            backoff := (RetryPolicy.next r.state.backoff).2, lastFailure := some .missingLabels }
          now := t, signal := r.signalled, script := r.spent
          live := r.live - r.state.connection.toList.length }
        ((r.now, .receiving r.current) :: (t, .received m) ::
          (r.parting ++ [Event.pausing r.state.delay]).map fun e => (t, e))
  /-- A message without an operation id costs a pause. -/
  | unidentified {t : Nat} {m : Message} (stage : r.state.stage = .listening)
      (quiet : ¬ r.Stopping) (reaches : r.Reaches t)
      (result : r.script.nextReceive.result = .ok m) (labelled : m.hasLabels = true)
      (anonymous : m.operationId? = none) :
      Turn r
        { r with
          state := { r.state with
            stage := .pausing r.state.delay, backoff := (RetryPolicy.next r.state.backoff).2
            lastFailure := some .missingOperationId }
          now := t, signal := r.signalled, script := r.spent }
        [(r.now, .receiving r.current), (t, .received m), (t, .pausing r.state.delay)]
  | requested {t : Nat} {m : Message} {id : String} (stage : r.state.stage = .listening)
      (quiet : ¬ r.Stopping) (reaches : r.Reaches t)
      (result : r.script.nextReceive.result = .ok m) (identified : m.operationId? = some id) :
      Turn r
        { r with
          state := { r.state with
            stage := .handling id m.body, backoff := RetryPolicy.reset r.state.backoff }
          now := t, signal := r.signalled, script := r.spent }
        [(r.now, .receiving r.current), (t, .received m), (t, .reset)]
  /-- A failed receive costs the connection. -/
  | lost {t : Nat} {cause : TransportError} (stage : r.state.stage = .listening)
      (quiet : ¬ r.Stopping) (reaches : r.Reaches t)
      (result : r.script.nextReceive.result = .error cause) :
      Turn r
        { r with
          state := { r.state with
            stage := .pausing r.state.delay, connection := none
            backoff := (RetryPolicy.next r.state.backoff).2, lastFailure := some (.receive cause) }
          now := t, signal := r.signalled, script := r.spent
          live := r.live - r.state.connection.toList.length }
        ((r.now, .receiving r.current) :: (t, .receiveFailed cause) ::
          (r.parting ++ [Event.pausing r.state.delay]).map fun e => (t, e))
  | handled {t : Nat} {id : String} {request : Option Body}
      (stage : r.state.stage = .handling id request) (ends : r.ends = some t) :
      Turn r
        { r with
          state := { r.state with
            stage := .acknowledging id (State.acknowledgement id (r.reply request)) }
          now := t, signal := r.signalled, script := r.spent }
        [(r.now, .handling request r.properties (r.signal.fired r.now)),
          (t, .handled id (r.reply request))]
  | sent {t : Nat} {id : String} {status : Message}
      (stage : r.state.stage = .acknowledging id status) (ends : r.ends = some t)
      (result : r.script.nextSend.result = none) :
      Turn r
        { r with
          state := { r.state with stage := .listening }
          now := t, signal := r.signalled, script := r.spent }
        [(r.now, .sending r.current status)]
  | unsent {t : Nat} {id : String} {status : Message} {cause : TransportError}
      (stage : r.state.stage = .acknowledging id status) (ends : r.ends = some t)
      (result : r.script.nextSend.result = some cause) :
      Turn r
        { r with
          state := { r.state with stage := .listening, lastFailure := some (.sendStatus cause) }
          now := t, signal := r.signalled, script := r.spent }
        [(r.now, .sending r.current status), (t, .sendFailed id cause)]
  | resumed {t connection : Nat} {delay : Duration} (stage : r.state.stage = .pausing delay)
      (reaches : r.Reaches t) (connected : r.state.connection = some connection) :
      Turn r { r with state := { r.state with stage := .listening }, now := t } []
  | retrying {t : Nat} {delay : Duration} (stage : r.state.stage = .pausing delay)
      (reaches : r.Reaches t) (unconnected : r.state.connection = none) :
      Turn r { r with state := { r.state with stage := .connecting }, now := t } []
  | roused {c : Nat} {delay : Duration} (stage : r.state.stage = .pausing delay)
      (misses : r.Misses c) :
      Turn r
        { r with
          state := { r.state with stage := .finished, connection := none }
          now := max c r.now, live := r.live - r.state.connection.toList.length }
        ((max c r.now, .finished) :: r.parting.map fun e => (max c r.now, e))

theorem State.heedsStop_iff (s : State β) :
    s.heedsStop = true ↔ s.stage = .connecting ∨ s.stage = .listening := by
  simp [State.heedsStop]

namespace Run

variable {r : Run β}

theorem filterMap_parting {α : Type} {f : Timed → Option α} (r : Run β) (t : Nat)
    (silent : ∀ connection, f (t, .dropped connection) = none) :
    (r.parting.map fun e => (t, e)).filterMap f = [] := by
  unfold parting
  cases r.state.connection <;> simp [silent]

theorem liveAfter_parting (r : Run β) :
    liveAfter r.live r.parting = r.live - r.state.connection.toList.length := by
  unfold parting
  cases r.state.connection <;> simp [liveAfter]

theorem liveAfter_reconnecting (r : Run β) (delay : Duration) :
    liveAfter r.live (r.parting ++ [.pausing delay]) =
      r.live - r.state.connection.toList.length := by
  rw [← liveAfter_parting]
  exact List.foldl_append

/-- Once the next call has begun, the stop signal fires when it would have fired anyway, or at once.
-/
theorem of_signalled {c : Nat} (fires : r.signalled.firesAt = some c) :
    r.signal.firesAt = some c ∨ c = r.now := by
  unfold signalled at fires
  split at fires
  · exact Signal.of_giveIf fires
  · exact Signal.of_giveIf fires
  · exact Signal.of_giveIf fires
  · exact Signal.of_giveIf fires
  · exact .inl fires
  · exact .inl fires

theorem le_of_signalled {c : Nat} (quiet : ¬ r.Stopping) (fires : r.signalled.firesAt = some c) :
    r.now ≤ c := by
  have unfired : r.signal.fired r.now = false := by simpa [Stopping] using quiet
  rcases of_signalled fires with later | rfl
  · exact Nat.le_of_lt ((r.signal.not_fired_iff r.now).1 unfired c later)
  · exact Nat.le_refl _

theorem signalled_le {c : Nat} (fires : r.signal.firesAt = some c) :
    ∃ c', c' ≤ c ∧ r.signalled.firesAt = some c' := by
  unfold signalled
  split
  · exact Signal.giveIf_le fires _ _
  · exact Signal.giveIf_le fires _ _
  · exact Signal.giveIf_le fires _ _
  · exact Signal.giveIf_le fires _ _
  · exact ⟨c, Nat.le_refl c, fires⟩
  · exact ⟨c, Nat.le_refl c, fires⟩

/-- Giving the stop signal again changes nothing. -/
theorem signalled_of_stopping (stopping : r.Stopping) : r.signalled = r.signal := by
  have fired : r.signal.fired r.now = true := stopping
  unfold signalled
  split
  · exact Signal.giveIf_of_fired fired _
  · exact Signal.giveIf_of_fired fired _
  · exact Signal.giveIf_of_fired fired _
  · exact Signal.giveIf_of_fired fired _
  · rfl
  · rfl

theorem le_of_ends {t : Nat} (ends : r.ends = some t) : r.now ≤ t := by
  unfold Run.ends at ends
  split at ends
  · exact le_of_ending ends
  · exact le_of_ending ends
  · exact le_of_handlerEnding ends
  · exact le_of_ending ends
  · cases ends
    exact Nat.le_add_right _ _
  · cases ends

theorem finish_eq (r : Run β) :
    r.state.finish =
      ({ r.state with stage := .finished, connection := none }, .finished :: r.parting) := rfl

theorem signalled_of_pausing {delay : Duration} (stage : r.state.stage = .pausing delay) :
    r.signalled = r.signal := by
  simp only [signalled, stage]

variable [RetryPolicy β]

theorem connect_turn (stage : r.state.stage = .connecting) (quiet : ¬ r.Stopping) :
    Turn r r.connect.1 r.connect.2 := by
  have signal : r.signal.giveIf r.script.nextConnect.stops r.now = r.signalled := by
    simp only [signalled, stage]
  have script : { r.script with connects := r.script.connects.tail } = r.spent := by
    simp only [spent, stage]
  unfold connect
  simp only [signal, script]
  cases ending : r.ending r.script.nextConnect.takes with
  | none =>
    exact .endless (fun stopping => absurd stopping quiet) (by simp only [call?, stage])
      (by simp only [ends, stage, ending]) (by simp only [stage, reduceCtorEq, false_implies])
  | some t =>
    have ends : r.ends = some t := by simp only [Run.ends, stage, ending]
    cases result : r.script.nextConnect.result with
    | ok _ => exact .connected stage quiet ends result
    | error cause => exact .refused stage quiet ends result

theorem receive_turn (stage : r.state.stage = .listening) (quiet : ¬ r.Stopping) :
    Turn r r.receive.1 r.receive.2 := by
  have signal : r.signal.giveIf r.script.nextReceive.stops r.now = r.signalled := by
    simp only [signalled, stage]
  have script : { r.script with receives := r.script.receives.tail } = r.spent := by
    simp only [spent, stage]
  have ends : r.ends = r.ending r.script.nextReceive.takes := by simp only [Run.ends, stage]
  unfold receive
  simp only [signal, script, ← ends]
  cases wake : r.signalled.wait r.now r.ends with
  | never =>
    obtain ⟨never, silent⟩ := Signal.of_never wake
    exact .endless (fun stopping => absurd stopping quiet) (by simp only [call?, stage, current])
      never (fun _ => silent)
  | stopped t =>
    obtain ⟨c, fires, rfl, early⟩ := Signal.of_stopped wake
    have le : r.now ≤ c := r.le_of_signalled quiet fires
    have turn := Turn.interrupted stage quiet ⟨fires, early⟩ le
    rw [finish_eq, Nat.max_eq_left le]
    rw [← liveAfter_parting] at turn
    exact turn
  | due t =>
    have reaches : r.Reaches t :=
      ⟨Signal.eq_of_due wake, fun c fires => Signal.before_of_due wake fires⟩
    cases result : r.script.nextReceive.result with
    | error cause =>
      have turn := Turn.lost stage quiet reaches result
      rw [← liveAfter_reconnecting r r.state.delay] at turn
      exact turn
    | ok m =>
      simp only [State.onReceived]
      split
      · rename_i bare
        have turn := Turn.unlabelled stage quiet reaches result (by simpa using bare)
        rw [← liveAfter_reconnecting r r.state.delay] at turn
        exact turn
      · rename_i labelled
        split
        · rename_i anonymous
          exact .unidentified stage quiet reaches result (by simpa using labelled) anonymous
        · rename_i id identified
          exact .requested stage quiet reaches result identified

theorem handle_turn {id : String} {request : Option Body}
    (stage : r.state.stage = .handling id request) :
    Turn r (r.handle id request).1 (r.handle id request).2 := by
  have signal : r.signal.giveIf r.script.nextHandle.1.stops r.now = r.signalled := by
    simp only [signalled, stage]
  have script : { r.script with handles := r.script.handles.tail } = r.spent := by
    simp only [spent, stage]
  have ends : r.ends = r.handlerEnding r.signalled := by simp only [Run.ends, stage]
  have heedless : r.state.heedsStop = false := by simp [State.heedsStop, stage]
  unfold handle
  simp only [signal, script, ← ends]
  cases ending : r.ends with
  | none =>
    exact .endless (fun _ => heedless) (by simp only [call?, stage]) ending
      (by simp only [stage, reduceCtorEq, false_implies])
  | some t => exact .handled stage ending

theorem send_turn {id : String} {status : Message}
    (stage : r.state.stage = .acknowledging id status) :
    Turn r (r.send id status).1 (r.send id status).2 := by
  have signal : r.signal.giveIf r.script.nextSend.stops r.now = r.signalled := by
    simp only [signalled, stage]
  have script : { r.script with sends := r.script.sends.tail } = r.spent := by
    simp only [spent, stage]
  have ends : r.ends = r.ending r.script.nextSend.takes := by simp only [Run.ends, stage]
  have heedless : r.state.heedsStop = false := by simp [State.heedsStop, stage]
  unfold send
  simp only [signal, script, ← ends]
  cases ending : r.ends with
  | none =>
    exact .endless (fun _ => heedless) (by simp only [call?, stage, current]) ending
      (by simp only [stage, reduceCtorEq, false_implies])
  | some t =>
    cases result : r.script.nextSend.result with
    | none => exact .sent stage ending result
    | some cause => exact .unsent stage ending result

theorem rest_turn {delay : Duration} (stage : r.state.stage = .pausing delay) :
    Turn r (r.rest delay).1 (r.rest delay).2 := by
  have signal : r.signal = r.signalled := (signalled_of_pausing stage).symm
  have ends : r.ends = some (r.now + delay.pauseMillis) := by simp only [Run.ends, stage]
  unfold rest
  rw [← ends]
  cases wake : r.signal.wait r.now r.ends with
  | never =>
    obtain ⟨never, -⟩ := Signal.of_never wake
    simp [ends] at never
  | stopped t =>
    obtain ⟨c, fires, rfl, early⟩ := Signal.of_stopped wake
    have turn := Turn.roused stage ⟨signal ▸ fires, early⟩
    rw [← liveAfter_parting] at turn
    exact turn
  | due t =>
    have reaches : r.Reaches t :=
      ⟨Signal.eq_of_due wake, fun c fires => Signal.before_of_due wake (signal ▸ fires)⟩
    cases connection : r.state.connection with
    | none =>
      have rested : r.state.onRested = { r.state with stage := .connecting } := by
        simp [State.onRested, connection]
      rw [rested]
      exact .retrying stage reaches connection
    | some c =>
      have rested : r.state.onRested = { r.state with stage := .listening } := by
        simp [State.onRested, connection]
      rw [rested]
      exact .resumed stage reaches connection

/-- Every step that is taken is one of the cases. -/
theorem turn (going : r.Going) : Turn r r.step.1 r.step.2 := by
  unfold step
  split
  · rename_i heeds
    rw [Bool.and_eq_true] at heeds
    have turn := Turn.heeded heeds.1 heeds.2
    rw [← liveAfter_parting] at turn
    exact turn
  · rename_i heedless
    have quiet (heeds : r.state.heedsStop = true) : ¬ r.Stopping := by
      intro stopping
      exact heedless (by rw [Bool.and_eq_true]; exact ⟨stopping, heeds⟩)
    cases stage : r.state.stage with
    | connecting => exact connect_turn stage (quiet (by simp [State.heedsStop, stage]))
    | listening => exact receive_turn stage (quiet (by simp [State.heedsStop, stage]))
    | handling id request => exact handle_turn stage
    | acknowledging id status => exact send_turn stage
    | pausing delay => exact rest_turn stage
    | finished => exact absurd stage going.2

theorem steps_of_not_going (h : ¬ r.Going) (n : Nat) : r.steps n = (r, []) := by
  cases n with
  | zero => rfl
  | succ n =>
    have stuck : (r.hung || r.state.stage = .finished) = true := by
      cases hung : r.hung with
      | true => simp only [Bool.true_or]
      | false => simpa [Going, hung] using h
    simp only [steps, stuck, ↓reduceIte]

theorem steps_succ (going : r.Going) (n : Nat) :
    r.steps (n + 1) = ((r.step.1.steps n).1, r.step.2 ++ (r.step.1.steps n).2) := by
  have live : ¬ (r.hung || r.state.stage = .finished) = true := by
    simp only [going.1, going.2, decide_false, Bool.or_self, Bool.false_eq_true,
      not_false_eq_true]
  simp only [steps, live, ↓reduceIte, Bool.false_eq_true]

theorem going_of_steps {n : Nat} (onward : (r.steps n).1.Going) : r.Going := by
  by_cases going : r.Going
  · exact going
  · rwa [steps_of_not_going going] at onward

theorem steps_add (r : Run β) (m n : Nat) :
    r.steps (m + n) = (((r.steps m).1.steps n).1, (r.steps m).2 ++ ((r.steps m).1.steps n).2) := by
  induction m generalizing r with
  | zero => simp [steps]
  | succ m ih =>
    by_cases going : r.Going
    · rw [Nat.succ_add, steps_succ going, steps_succ going, ih]
      simp only [List.append_assoc]
    · simp only [steps_of_not_going going, List.nil_append]

theorem steps_of_ended {m n : Nat} (ended : ¬ (r.steps m).1.Going) (le : m ≤ n) :
    r.steps n = r.steps m := by
  obtain ⟨more, rfl⟩ := Nat.exists_eq_add_of_le le
  rw [steps_add, steps_of_not_going ended, List.append_nil]

/-- Every event of a run is one of a step that was taken. -/
theorem mem_steps {n : Nat} {e : Timed} (shown : e ∈ (r.steps n).2) :
    ∃ k < n, (r.steps k).1.Going ∧ e ∈ (r.steps k).1.step.2 := by
  induction n with
  | zero => cases shown
  | succ n ih =>
    rw [steps_add] at shown
    rcases List.mem_append.1 shown with before | now
    · obtain ⟨k, less, found⟩ := ih before
      exact ⟨k, by omega, found⟩
    · by_cases going : (r.steps n).1.Going
      · rw [steps_succ going] at now
        simp only [steps, List.append_nil] at now
        exact ⟨n, by omega, going, now⟩
      · rw [steps_of_not_going going] at now
        cases now

theorem mem_steps_of_le {m n : Nat} {e : Timed} (shown : e ∈ (r.steps m).2) (le : m ≤ n) :
    e ∈ (r.steps n).2 := by
  obtain ⟨more, rfl⟩ := Nat.exists_eq_add_of_le le
  rw [steps_add]
  exact List.mem_append_left _ shown

end Run

variable [RetryPolicy β]

/-- From a handler call the session goes nowhere but to the status message. -/
theorem Turn.of_handling {r next : Run β} {events : List Timed} {id : String} {request : Option Body}
    (turn : Turn r next events) (stage : r.state.stage = .handling id request) :
    let begun := Event.handling request r.properties (r.signal.fired r.now)
    (r.ends = none ∧ events = [(r.now, begun)] ∧ next.hung = true) ∨
      ∃ t result, r.ends = some t ∧ events = [(r.now, begun), (t, .handled id result)] ∧
        next.state.stage = .acknowledging id (State.acknowledgement id result) ∧
        next.state.connection = r.state.connection ∧ next.now = t ∧ next.hung = r.hung ∧
        next.signal = r.signalled := by
  cases turn with
  | endless _ call never =>
    simp only [Run.call?, stage, Option.some.injEq] at call
    exact .inl ⟨never, by rw [call], rfl⟩
  | handled same ends =>
    obtain ⟨rfl, rfl⟩ := Stage.handling.inj (stage.symm.trans same)
    exact .inr ⟨_, _, ends, rfl, rfl, rfl, rfl, rfl, rfl⟩
  | heeded _ heeds => simp [State.heedsStop, stage] at heeds
  | connected other | refused other | interrupted other | unlabelled other
  | unidentified other | requested other | lost other | sent other | unsent other
  | resumed other | retrying other | roused other => cases stage.symm.trans other

/-- From a status message the session goes back to listening. -/
theorem Turn.of_acknowledging {r next : Run β} {events : List Timed} {id : String} {status : Message}
    (turn : Turn r next events) (stage : r.state.stage = .acknowledging id status) :
    let begun := Event.sending r.current status
    (r.ends = none ∧ events = [(r.now, begun)] ∧ next.hung = true) ∨
      ∃ t, r.ends = some t ∧
        (events = [(r.now, begun)] ∨
          ∃ cause, events = [(r.now, begun), (t, .sendFailed id cause)]) ∧
        next.state.stage = .listening ∧ next.state.connection = r.state.connection ∧
        next.now = t ∧ next.hung = r.hung ∧ next.signal = r.signalled := by
  cases turn with
  | endless _ call never =>
    simp only [Run.call?, stage, Option.some.injEq] at call
    exact .inl ⟨never, by rw [call], rfl⟩
  | sent same ends =>
    obtain ⟨rfl, rfl⟩ := Stage.acknowledging.inj (stage.symm.trans same)
    exact .inr ⟨_, ends, .inl rfl, rfl, rfl, rfl, rfl, rfl⟩
  | unsent same ends =>
    obtain ⟨rfl, rfl⟩ := Stage.acknowledging.inj (stage.symm.trans same)
    exact .inr ⟨_, ends, .inr ⟨_, rfl⟩, rfl, rfl, rfl, rfl, rfl⟩
  | heeded _ heeds => simp [State.heedsStop, stage] at heeds
  | connected other | refused other | interrupted other | unlabelled other
  | unidentified other | requested other | lost other | handled other
  | resumed other | retrying other | roused other => cases stage.symm.trans other

/-- From a pause the session goes on without an event, or the stop signal ends it. -/
theorem Turn.of_pausing {r next : Run β} {events : List Timed} {delay : Duration}
    (turn : Turn r next events) (stage : r.state.stage = .pausing delay) :
    let due := r.now + delay.pauseMillis
    (r.Reaches due ∧ events = [] ∧ next = { r with state := r.state.onRested, now := due }) ∨
      ∃ c, r.Misses c ∧
        events = (max c r.now, .finished) :: (r.parting.map fun e => (max c r.now, e)) ∧
        next.state.stage = .finished ∧ next.now = max c r.now := by
  have due {t : Nat} (reaches : r.Reaches t) : r.now + delay.pauseMillis = t := by
    have ends := reaches.1
    simpa only [Run.ends, stage, Option.some.injEq] using ends
  cases turn with
  | resumed _ reaches connected =>
    obtain rfl := due reaches
    exact .inl ⟨reaches, rfl, by simp [State.onRested, connected]⟩
  | retrying _ reaches unconnected =>
    obtain rfl := due reaches
    exact .inl ⟨reaches, rfl, by simp [State.onRested, unconnected]⟩
  | roused _ misses => exact .inr ⟨_, misses, rfl, rfl, rfl⟩
  | endless _ call => simp [Run.call?, stage] at call
  | heeded _ heeds => simp [State.heedsStop, stage] at heeds
  | connected other | refused other | interrupted other | unlabelled other
  | unidentified other | requested other | lost other | handled other | sent other
  | unsent other => cases stage.symm.trans other

/-- A turn keeps the stop signal as its call has left it. -/
theorem Turn.signal_eq {r next : Run β} {events : List Timed} (turn : Turn r next events) :
    next.signal = r.signalled := by
  cases turn with
  | heeded stopping => exact (Run.signalled_of_stopping stopping).symm
  | resumed stage | retrying stage | roused stage => exact (Run.signalled_of_pausing stage).symm
  | _ => rfl

/-- What a turn shows lies between its beginning and its end. -/
theorem Turn.instants {r next : Run β} {events : List Timed} (turn : Turn r next events) :
    r.now ≤ next.now ∧ ∀ e ∈ events, e.1 ≤ next.now := by
  cases turn with
  | heeded => simp
  | endless => simp
  | connected _ _ ends | refused _ _ ends | handled _ ends | sent _ ends | unsent _ ends =>
    have le := Run.le_of_ends ends
    simp [le]
  | interrupted _ _ _ le => simp [le]
  | unidentified _ _ reaches | requested _ _ reaches | resumed _ reaches | retrying _ reaches =>
    have le := Run.le_of_ends reaches.1
    simp [le]
  | unlabelled _ _ reaches | lost _ _ reaches =>
    have le := Run.le_of_ends reaches.1
    refine ⟨le, List.forall_mem_cons.2 ⟨le, List.forall_mem_cons.2 ⟨Nat.le_refl _, ?_⟩⟩⟩
    exact List.forall_mem_map.2 fun _ _ => Nat.le_refl _
  | roused =>
    refine ⟨Nat.le_max_right _ _, List.forall_mem_cons.2 ⟨Nat.le_refl _, ?_⟩⟩
    exact List.forall_mem_map.2 fun _ _ => Nat.le_refl _

/-- A turn shows its call first, unless the stop signal is heeded before it. -/
theorem Turn.of_call {r next : Run β} {events : List Timed} {begun : Event}
    (turn : Turn r next events) (call : r.call? = some begun) :
    ∃ rest, events = (r.now, begun) :: rest ∨
      events = (r.now, .finished) :: rest ∧ r.Stopping ∧ ¬ next.Going ∧ next.signal = r.signal := by
  cases turn with
  | heeded stopping => exact ⟨_, .inr ⟨rfl, stopping, by simp [Run.Going], rfl⟩⟩
  | endless _ known =>
    obtain rfl := Option.some.inj (known.symm.trans call)
    exact ⟨_, .inl rfl⟩
  | connected stage | refused stage | interrupted stage | unlabelled stage
  | unidentified stage | requested stage | lost stage | handled stage | sent stage
  | unsent stage =>
    simp only [Run.call?, stage, Option.some.injEq] at call
    subst call
    exact ⟨_, .inl rfl⟩
  | resumed stage | retrying stage | roused stage => simp [Run.call?, stage] at call

/-- A session between two calls begins the next one at once, unless the stop signal has fired. -/
theorem begins {r : Run β} {begun : Event} (n : Nat) (alive : r.hung = false)
    (call : r.call? = some begun) :
    ∃ next rest, (r.steps (n + 1)).2 = next :: rest ∧
      (next = (r.now, begun) ∨
        next = (r.now, .finished) ∧ (r.steps (n + 1)).1.signal.fired next.1 = true) := by
  have going : r.Going := by
    refine ⟨alive, fun finished => ?_⟩
    simp [Run.call?, finished] at call
  rw [Run.steps_succ going]
  obtain ⟨rest, shown | ⟨shown, stopping, ended, signal⟩⟩ := (Run.turn going).of_call call
  · rw [shown]
    exact ⟨_, _, rfl, .inl rfl⟩
  · rw [Run.steps_of_not_going ended, shown]
    refine ⟨_, _, rfl, .inr ⟨rfl, ?_⟩⟩
    rw [signal]
    exact stopping

def Run.sought (r : Run β) : Event :=
  if r.state.connection.isSome then .receiving r.current else .connecting r.live

/-- A session that pauses makes its next call at the end of the pause, unless the stop signal has
fired by then. -/
theorem resumes {r : Run β} {delay : Duration} (n : Nat) (alive : r.hung = false)
    (stage : r.state.stage = .pausing delay) :
    ∃ next rest, (r.steps (n + 2)).2 = next :: rest ∧
      (next = (r.now + delay.pauseMillis, r.sought) ∨
        next.2 = .finished ∧ next.1 ≤ r.now + delay.pauseMillis ∧
          (r.steps (n + 2)).1.signal.fired next.1 = true) := by
  have going : r.Going := ⟨alive, by simp [stage]⟩
  rw [Run.steps_succ going]
  rcases (Run.turn going).of_pausing stage with ⟨-, quiet, rested⟩ | ⟨c, misses, stops, ended, -⟩
  · have call : r.step.1.call? = some r.sought := by
      rw [rested]
      cases connection : r.state.connection <;>
        simp [State.onRested, Run.call?, Run.sought, Run.current, connection]
    have now : r.step.1.now = r.now + delay.pauseMillis := by rw [rested]
    obtain ⟨next, rest, found, follows⟩ := begins n (by rw [rested]; exact alive) call
    rw [quiet, List.nil_append]
    rw [now] at follows
    refine ⟨next, rest, found, ?_⟩
    rcases follows with begun | ⟨rfl, fired⟩
    · exact .inl begun
    · exact .inr ⟨rfl, Nat.le_refl _, fired⟩
  · obtain ⟨fires, early⟩ := misses
    have ends := early (r.now + delay.pauseMillis) (by simp only [Run.ends, stage])
    have signal := (Run.turn going).signal_eq
    rw [Run.steps_of_not_going (by simp [Run.Going, ended]), stops]
    refine ⟨_, _, rfl, .inr ⟨rfl, ?_, ?_⟩⟩
    · exact Nat.max_le.2 ⟨ends.2, Nat.le_of_lt ends.1⟩
    · exact (Signal.fired_iff _ _).2 ⟨c, signal ▸ fires, Nat.le_max_left _ _⟩

/-- What every turn of a run keeps, with the events so far, holds after any number of steps if it
holds at the start. -/
theorem steps_keep {session : Run β} {Kept : List Timed → Run β → Prop} (start : Kept [] session)
    (keeps : ∀ n {next : Run β} {events : List Timed}, (session.steps n).1.Going →
      Turn (session.steps n).1 next events → Kept (session.steps n).2 (session.steps n).1 →
      Kept ((session.steps n).2 ++ events) next)
    (n : Nat) : Kept (session.steps n).2 (session.steps n).1 := by
  induction n with
  | zero => exact start
  | succ n ih =>
    rw [Run.steps_add]
    by_cases going : (session.steps n).1.Going
    · rw [Run.steps_succ going]
      simp only [Run.steps, List.append_nil]
      exact keeps n going (Run.turn going) ih
    · rw [Run.steps_of_not_going going, List.append_nil]
      exact ih

/-- What holds of the events of every step, given two more steps to see what comes of them, holds of
all events of a run. `Kept` is what the steps before have left behind. -/
theorem placed_steps (Kept : List Timed → Run β → Prop)
    (fits : Run β → List Timed → Timed → List Timed → Prop)
    (keeps : ∀ {past : List Timed} {r next : Run β} {events : List Timed}, r.Going →
      Turn r next events → Kept past r → Kept (past ++ events) next)
    (here : ∀ {past : List Timed} {r : Run β} (n : Nat), r.Going → Kept past r →
      Trace.Placed (fits (r.step.1.steps (n + 2)).1) (r.step.1.steps (n + 2)).2 past r.step.2)
    (n : Nat) (past : List Timed) {r : Run β} {before after : List Timed} {e : Timed}
    (kept : Kept past r) (split : (r.steps n).2 = before ++ e :: after) :
    ∃ later, (r.steps (n + 2)).2 = before ++ e :: later ∧
      fits (r.steps (n + 2)).1 (past ++ before) e later := by
  induction n generalizing r past before with
  | zero => simp [Run.steps] at split
  | succ n ih =>
    by_cases going : r.Going
    · rw [Run.steps_succ going] at split ⊢
      rcases Trace.split_append split with ⟨tail, now, -⟩ | ⟨skipped, rfl, soon⟩
      · refine ⟨tail ++ (r.step.1.steps (n + 2)).2, ?_, (here n going kept).at now⟩
        rw [now]
        simp only [List.append_assoc, List.cons_append]
      · obtain ⟨later, whole, fit⟩ := ih _ (keeps going (Run.turn going) kept) soon
        refine ⟨later, ?_, ?_⟩
        · rw [whole, List.append_assoc]
        · rwa [← List.append_assoc]
    · simp [Run.steps_of_not_going going] at split

end ChannelAgent.Session
