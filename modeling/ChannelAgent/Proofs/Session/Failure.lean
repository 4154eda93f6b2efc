import ChannelAgent.Proofs.Session.Told

set_option autoImplicit false

namespace ChannelAgent.Session

variable {β : Type}

/-- The failure that an event shows, if it shows one. A failed handler is none. -/
def Event.failure? : Event → Option Failure
  | .connectFailed cause => some (.connect cause)
  | .receiveFailed cause => some (.receive cause)
  | .received m =>
    if m.labels.isEmpty then some .missingLabels
    else if m.operationId? = none then some .missingOperationId
    else none
  | .sendFailed _ cause => some (.sendStatus cause)
  | _ => none

/-- The failures among some events, in their order. -/
def failures (events : List Timed) : List Failure := events.filterMap fun e => e.2.failure?

namespace Run

@[simp] theorem failures_parting (r : Run β) (t : Nat) :
    failures (r.parting.map fun e => (t, e)) = [] := by
  exact r.filterMap_parting t (fun _ => rfl)

end Run

@[simp] theorem failures_append (first second : List Timed) :
    failures (first ++ second) = failures first ++ failures second :=
  List.filterMap_append

@[simp] theorem failures_nil : failures [] = [] := rfl

@[simp] theorem failures_cons (e : Timed) (rest : List Timed) :
    failures (e :: rest) = e.2.failure?.toList ++ failures rest := by
  unfold failures
  cases known : e.2.failure? <;> simp [known]

variable [RetryPolicy β]

/-- The session has recorded the latest failure so far. -/
structure Recorded (past : List Timed) (r : Run β) : Prop where
  latest : r.state.lastFailure = (failures past).getLast?
  stopped : r.state.stage = .finished → r.Stopping

theorem Recorded.turn {past events : List Timed} {r next : Run β} (going : r.Going)
    (turn : Turn r next events) (recorded : Recorded past r) :
    Recorded (past ++ events) next := by
  obtain ⟨latest, -⟩ := recorded
  cases turn with
  | heeded stopping _ => exact ⟨by simp [latest, Event.failure?], fun _ => stopping⟩
  | endless _ call _ _ =>
    refine ⟨?_, fun finished => absurd finished going.2⟩
    unfold Run.call? at call
    split at call <;> cases call <;> simp [latest, Event.failure?]
  | connected => exact ⟨by simp [latest, Event.failure?], by simp⟩
  | refused => exact ⟨by simp [Event.failure?], by simp⟩
  | interrupted _ _ misses _ =>
    refine ⟨by simp [latest, Event.failure?], fun _ => ?_⟩
    exact (Signal.fired_iff _ _).2 ⟨_, misses.1, Nat.le_refl _⟩
  | unlabelled _ _ _ _ bare =>
    exact ⟨by simp [Event.failure?, Message.isEmpty_labels, bare], by simp⟩
  | unidentified _ _ _ _ labelled anonymous =>
    exact ⟨by simp [Event.failure?, Message.isEmpty_labels, labelled, anonymous], by simp⟩
  | requested _ _ _ _ identified =>
    have labelled := Message.hasLabels_of_operationId? identified
    exact ⟨by simp [latest, Event.failure?, Message.isEmpty_labels, labelled, identified], by simp⟩
  | lost => exact ⟨by simp [Event.failure?], by simp⟩
  | handled => exact ⟨by simp [latest, Event.failure?], by simp⟩
  | sent => exact ⟨by simp [latest, Event.failure?], by simp⟩
  | unsent => exact ⟨by simp [Event.failure?], by simp⟩
  | resumed => exact ⟨by simp [latest], by simp⟩
  | retrying => exact ⟨by simp [latest], by simp⟩
  | roused stage misses =>
    refine ⟨by simp [latest, Event.failure?], fun _ => ?_⟩
    rw [Run.Misses, Run.signalled_of_pausing stage] at misses
    exact (Signal.fired_iff _ _).2 ⟨_, misses.1, Nat.le_max_left _ _⟩

/-- The call that a run makes next fails in the end. Neither a connect attempt nor the sending of a
status message is cut short when the stop signal fires. -/
inductive Run.Fails (r : Run β) : Failure → Prop
  | connect {ms : Nat} {cause : TransportError} (stage : r.state.stage = .connecting)
      (quiet : ¬ r.Stopping) (takes : r.script.nextConnect.takes = some ms)
      (result : r.script.nextConnect.result = .error cause) : Fails r (.connect cause)
  | sendStatus {ms : Nat} {id : String} {status : Message} {cause : TransportError}
      (stage : r.state.stage = .acknowledging id status)
      (takes : r.script.nextSend.takes = some ms)
      (result : r.script.nextSend.result = some cause) : Fails r (.sendStatus cause)

theorem Turn.lastFailure_of_fails {r next : Run β} {events : List Timed} {failure : Failure}
    (turn : Turn r next events) (fails : r.Fails failure) :
    next.state.lastFailure = some failure := by
  cases fails with
  | connect stage quiet takes result =>
    cases turn with
    | refused _ _ _ same =>
      obtain rfl := Except.error.inj (result.symm.trans same)
      rfl
    | connected _ _ _ same => cases result.symm.trans same
    | heeded stopping => exact absurd stopping quiet
    | endless _ _ never => simp [Run.ends, stage, Run.ending, takes] at never
    | interrupted other | unlabelled other | unidentified other | requested other | lost other
    | handled other | sent other | unsent other | resumed other | retrying other
    | roused other => cases stage.symm.trans other
  | sendStatus stage takes result =>
    cases turn with
    | unsent _ _ same =>
      obtain rfl := Option.some.inj (result.symm.trans same)
      rfl
    | sent _ _ same => cases result.symm.trans same
    | heeded _ heeds => simp [State.heedsStop, stage] at heeds
    | endless _ _ never => simp [Run.ends, stage, Run.ending, takes] at never
    | connected other | refused other | interrupted other | unlabelled other | unidentified other
    | requested other | lost other | handled other | resumed other | retrying other
    | roused other => cases stage.symm.trans other

/-- A session does not return before its stop signal has fired, and what it has to return at any
moment is the latest failure of this run, or nothing when there was none: of the failed connects,
the failed receives, the messages without labels or an operation id and the failed status messages
that its script tells of. A connect attempt or a status message that fails while the stop signal
fires is recorded like any other. Earlier runs of the session do not show. -/
theorem result_eq_latest_failure (earlier : Run β) (signal : Signal) (script : Script)
    (properties : CloudProperties) (n : Nat) :
    let session := earlier.again signal script properties
    let run := session.steps n
    Told script run.2 run.1.script ∧
      (run.1.state.stage = .finished → run.1.Stopping) ∧
      run.1.state.result =
        (match (failures run.2).getLast? with
          | some failure => .error failure
          | none => .ok ()) ∧
      (run.1.state.result = .ok () ↔ failures run.2 = []) ∧
      ∀ failure, run.1.Going → run.1.Fails failure →
        (session.steps (n + 1)).1.state.result = .error failure := by
  intro session run
  have start : Recorded [] session := ⟨rfl, fun finished => nomatch finished⟩
  have recorded : Recorded run.2 run.1 := steps_keep start (fun _ => Recorded.turn) n
  refine ⟨steps_told n session, recorded.stopped, ?_, ?_, ?_⟩
  · cases latest : (failures run.2).getLast? <;> simp only [State.result, recorded.latest, latest]
  · rw [← List.getLast?_eq_none_iff]
    cases latest : (failures run.2).getLast? <;> simp [State.result, recorded.latest, latest]
  · intro failure going fails
    have failed := (Run.turn going).lastFailure_of_fails fails
    rw [Run.steps_add, Run.steps_succ going]
    simp only [Run.steps, State.result, failed]

end ChannelAgent.Session
