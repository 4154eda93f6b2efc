import ChannelAgent.Proofs.Session.Told

set_option autoImplicit false

namespace ChannelAgent.Session

variable {β : Type}

/-- A received message with an operation id, and the connection on which it came. -/
structure Request where
  connection : Nat
  operationId : String
  body : Option Body

inductive Call
  | handle (request : Option Body)
  | send (connection : Nat) (labels : List (String × String)) (body : Option Body)

/-- The call that an event shows, if it shows one. -/
def Event.call? : Event → Option Call
  | .handling request _ _ => some (.handle request)
  | .sending connection m => some (.send connection m.labels.entries m.body)
  | _ => none

def calls (events : List Timed) : List Call := events.filterMap fun e => e.2.call?

/-- The requests among some events, in their order. The connection is that of the receive. -/
def requests : (connection : Nat) → List Timed → List Request
  | _, [] => []
  | _, (_, .receiving connection) :: rest => requests connection rest
  | connection, (_, .received m) :: rest =>
    match m.operationId? with
    | some id => ⟨connection, id, m.body⟩ :: requests connection rest
    | none => requests connection rest
  | connection, _ :: rest => requests connection rest

/-- What a handler call came to, if an event shows it. -/
def Event.result? : Event → Option (Except String (Option Body))
  | .handled _ result => some result
  | _ => none

/-- What the handler calls among some events came to, in their order. -/
def results (events : List Timed) : List (Except String (Option Body)) :=
  events.filterMap fun e => e.2.result?

/-- The labels of the status message for a request. -/
def statusLabels (operationId : String) :
    Except String (Option Body) → List (String × String)
  | .ok _ => [("lro_state", "done"), ("operation_id", operationId), ("state", "SUCCEEDED")]
  | .error _ => [("lro_state", "done"), ("operation_id", operationId), ("state", "FAILED")]

def statusBody : Except String (Option Body) → Option Body
  | .ok response => response
  | .error _ => none

/-- The calls that requests call for, given what their handler calls come to. A request whose
handler has not returned is not answered yet. -/
def answers : List Request → List (Except String (Option Body)) → List Call
  | [], _ => []
  | request :: _, [] => [.handle request.body]
  | request :: requests, result :: results =>
    .handle request.body ::
      .send request.connection (statusLabels request.operationId result) (statusBody result) ::
      answers requests results

@[simp] theorem calls_nil : calls [] = [] := rfl

@[simp] theorem calls_cons (e : Timed) (rest : List Timed) :
    calls (e :: rest) = e.2.call?.toList ++ calls rest := by
  unfold calls
  cases known : e.2.call? <;> simp [known]

@[simp] theorem calls_append (first second : List Timed) :
    calls (first ++ second) = calls first ++ calls second :=
  List.filterMap_append

@[simp] theorem results_nil : results [] = [] := rfl

@[simp] theorem results_cons (e : Timed) (rest : List Timed) :
    results (e :: rest) = e.2.result?.toList ++ results rest := by
  unfold results
  cases known : e.2.result? <;> simp [known]

@[simp] theorem results_append (first second : List Timed) :
    results (first ++ second) = results first ++ results second :=
  List.filterMap_append

theorem answers_acknowledged (request : Request) (result : Except String (Option Body))
    (later : List Request) (more : List (Except String (Option Body))) :
    let status := State.acknowledgement request.operationId result
    answers (request :: later) (result :: more) =
      .handle request.body ::
        .send request.connection status.labels.entries status.body :: answers later more := by
  cases result <;>
    simp only [answers, State.acknowledgement, Message.entries_status, statusLabels, statusBody,
      OperationState.name] <;> rfl

namespace Run

@[simp] theorem calls_parting (r : Run β) (t : Nat) :
    calls (r.parting.map fun e => (t, e)) = [] :=
  r.filterMap_parting t (fun _ => rfl)

@[simp] theorem results_parting (r : Run β) (t : Nat) :
    results (r.parting.map fun e => (t, e)) = [] :=
  r.filterMap_parting t (fun _ => rfl)

@[simp] theorem requests_parting (r : Run β) (t connection : Nat) (rest : List Timed) :
    requests connection ((r.parting.map fun e => (t, e)) ++ rest) = requests connection rest := by
  unfold parting
  cases r.state.connection <;> rfl

/-- The calls that a run has yet to make, given the events that are still to come. -/
def owed (connection : Nat) (r : Run β) (events : List Timed) : List Call :=
  let later := requests connection events
  match r.state.stage with
  | .handling id request => answers (⟨r.current, id, request⟩ :: later) (results events)
  | .acknowledging _ status =>
    .send r.current status.labels.entries status.body :: answers later (results events)
  | _ => answers later (results events)

def pending (r : Run β) : Nat :=
  match r.state.stage with
  | .handling .. => 1
  | _ => 0

/-- The run is not on the way from a request to its status message, or it is stuck there. -/
def Settled (r : Run β) : Prop :=
  r.hung = true ∨
    match r.state.stage with
    | .handling .. | .acknowledging .. => False
    | _ => True

end Run

variable [RetryPolicy β]

/-- A turn makes calls that are owed before it and owes the others after it. -/
theorem Turn.owed {r next : Run β} {events : List Timed} (turn : Turn r next events)
    (alive : next.hung = false) (connection : Nat) (more : List Timed) :
    ∃ connection',
      r.owed connection (events ++ more) = calls events ++ next.owed connection' more ∧
      (requests connection (events ++ more)).length + r.pending =
        (results events).length + (requests connection' more).length + next.pending := by
  cases turn with
  | heeded _ heeds =>
    refine ⟨connection, ?_⟩
    rcases r.state.heedsStop_iff.1 heeds with stage | stage <;>
      simp [Run.owed, Run.pending, stage, requests, Event.call?, Event.result?]
  | endless => cases alive
  | connected stage | refused stage | sent stage | unsent stage | resumed stage | retrying stage
  | roused stage =>
    refine ⟨connection, ?_⟩
    simp [Run.owed, Run.pending, stage, requests, Event.call?, Event.result?]
  | interrupted stage | lost stage =>
    refine ⟨r.current, ?_⟩
    simp [Run.owed, Run.pending, stage, requests, Event.call?, Event.result?]
  | unlabelled stage _ _ _ bare =>
    have anonymous := Message.operationId?_of_bare bare
    refine ⟨r.current, ?_⟩
    simp [Run.owed, Run.pending, stage, requests, anonymous, Event.call?, Event.result?]
  | unidentified stage _ _ _ _ anonymous =>
    refine ⟨r.current, ?_⟩
    simp [Run.owed, Run.pending, stage, requests, anonymous, Event.call?, Event.result?]
  | requested stage _ _ _ identified =>
    refine ⟨r.current, ?_⟩
    simp [Run.owed, Run.pending, stage, requests, identified, Event.call?, Event.result?,
      Run.current]
  | handled stage =>
    refine ⟨connection, ?_, ?_⟩
    · simp only [Run.owed, stage, List.cons_append, List.nil_append, requests, results_cons,
        Event.result?, Option.toList, calls_cons, Event.call?, calls_nil]
      exact answers_acknowledged _ _ _ _
    · simp [Run.pending, stage, requests, Event.result?, Nat.add_comm]

/-- A call that never ends is made all the same, and a handler that never returns keeps its request.
-/
theorem Turn.owed_endless {r next : Run β} {events : List Timed} (turn : Turn r next events)
    (going : r.Going) (hung : next.hung = true) (connection : Nat) :
    r.owed connection events = calls events ∧
      (requests connection events).length + r.pending = (results events).length + next.pending := by
  cases turn with
  | endless _ call =>
    unfold Run.call? at call
    split at call <;> cases call <;> rename_i stage <;>
      simp [Run.owed, Run.pending, stage, requests, answers, Event.call?, Event.result?]
  | _ => exact absurd hung (by simp [going.1])

/-- The calls of the events up to `last` are those that are owed before them. -/
structure Accounted (connection : Nat) (r last : Run β) (events : List Timed) : Prop where
  front : calls events <+: r.owed connection events
  whole : last.Settled → calls events = r.owed connection events
  balance : (requests connection events).length + r.pending =
    (results events).length + last.pending

theorem accounted_steps (n : Nat) (r : Run β) (alive : r.hung = false) (connection : Nat) :
    Accounted connection r (r.steps n).1 (r.steps n).2 := by
  induction n generalizing r connection with
  | zero =>
    refine ⟨List.nil_prefix, fun settled => ?_, by simp [Run.steps, requests]⟩
    rcases settled with hung | settled
    · exact absurd hung (by simp [Run.steps, alive])
    · simp only [Run.steps] at settled ⊢
      unfold Run.owed
      split at settled <;> simp_all [requests, answers]
  | succ n ih =>
    by_cases going : r.Going
    · rw [Run.steps_succ going]
      have turn := Run.turn going
      cases hung : r.step.1.hung with
      | true =>
        have stuck : ¬ r.step.1.Going := by simp [Run.Going, hung]
        obtain ⟨made, balance⟩ := turn.owed_endless going hung connection
        rw [Run.steps_of_not_going stuck, List.append_nil]
        exact ⟨⟨[], (List.append_nil _).trans made.symm⟩, fun _ => made.symm, balance⟩
      | false =>
        obtain ⟨connection', same, balance⟩ := turn.owed hung connection (r.step.1.steps n).2
        have rest := ih r.step.1 hung connection'
        refine ⟨?_, fun settled => ?_, ?_⟩
        · rw [same, calls_append]
          exact (List.prefix_append_right_inj _).2 rest.front
        · rw [same, calls_append, rest.whole settled]
        · rw [balance, results_append, List.length_append, Nat.add_assoc, Nat.add_assoc,
            rest.balance]
    · have finished : r.state.stage = .finished := by simpa [Run.Going, alive] using going
      rw [Run.steps_of_not_going going]
      exact ⟨List.nil_prefix, fun _ => by simp [Run.owed, finished, requests, answers], rfl⟩

/-- What follows a request: its handler call, and once the handler has returned its status message.
-/
inductive Answered (connection : Nat) (id : String) (request : Option Body) : List Timed → Prop
  | endless {t : Nat} {properties : CloudProperties} {stopping : Bool} :
      Answered connection id request [(t, .reset), (t, .handling request properties stopping)]
  | answered {t t' : Nat} {properties : CloudProperties} {stopping : Bool}
      {result : Except String (Option Body)} {more : List Timed} :
      Answered connection id request
        ((t, .reset) :: (t, .handling request properties stopping) :: (t', .handled id result) ::
          (t', .sending connection (State.acknowledgement id result)) :: more)

theorem steps_handling {r : Run β} {id : String} {request : Option Body} {t connection : Nat}
    (stage : r.state.stage = .handling id request) (now : r.now = t)
    (current : r.current = connection) (alive : r.hung = false) (n : Nat) :
    Answered connection id request ((t, .reset) :: (r.steps (n + 2)).2) := by
  subst now current
  have going : r.Going := ⟨alive, by simp [stage]⟩
  rw [Run.steps_succ going]
  rcases (Run.turn going).of_handling stage with ⟨-, events, hung⟩ | handled
  · have stuck : ¬ r.step.1.Going := by simp [Run.Going, hung]
    rw [Run.steps_of_not_going stuck, events]
    exact .endless
  · obtain ⟨t, result, -, events, acknowledging, connection, now, hung, -⟩ := handled
    have onward : r.step.1.Going := ⟨hung.trans alive, by simp [acknowledging]⟩
    have same : r.step.1.current = r.current := by simp only [Run.current, connection]
    rw [Run.steps_succ onward, events]
    rcases (Run.turn onward).of_acknowledging acknowledging with ⟨-, sending, -⟩ | sent
    · rw [sending, now, same]
      exact .answered
    · obtain ⟨_, -, sending | ⟨cause, sending⟩, -⟩ := sent
      · rw [sending, now, same]
        exact .answered
      · rw [sending, now, same]
        exact .answered

def FitsRequest (before : List Timed) (e : Timed) (later : List Timed) : Prop :=
  ∀ m id, e.2 = .received m → m.operationId? = some id →
    ∃ earlier begun connection, before = earlier ++ [(begun, .receiving connection)] ∧
      Answered connection id m.body later

theorem placed_request {past : List Timed} {r : Run β} (n : Nat) (going : r.Going) :
    Trace.Placed FitsRequest (r.step.1.steps (n + 2)).2 past r.step.2 := by
  have turn := Run.turn going
  generalize r.step.1 = next at turn ⊢
  generalize r.step.2 = events at turn ⊢
  cases turn with
  | requested _ _ _ _ identified =>
    refine ⟨by simp [FitsRequest], ?_, by simp [FitsRequest], trivial⟩
    intro m id same found
    obtain rfl := Event.received.inj same
    obtain rfl := Option.some.inj (identified.symm.trans found)
    refine ⟨past, _, _, rfl, steps_handling ?_ ?_ ?_ ?_ n⟩
    · rfl
    · rfl
    · rfl
    · exact going.1
  | endless _ call =>
    unfold Run.call? at call
    split at call <;> cases call <;> simp [Trace.Placed, FitsRequest]
  | unidentified _ _ _ _ _ anonymous =>
    refine ⟨by simp [FitsRequest], ?_, by simp [FitsRequest], trivial⟩
    intro m id same found
    obtain rfl := Event.received.inj same
    cases anonymous.symm.trans found
  | unlabelled _ _ _ _ bare =>
    refine ⟨by simp [FitsRequest], ?_, ?_⟩
    · intro m id same found
      obtain rfl := Event.received.inj same
      cases (Message.operationId?_of_bare bare).symm.trans found
    · cases connection : r.state.connection <;>
        simp [Run.parting, connection, Trace.Placed, FitsRequest]
  | heeded | interrupted | lost | roused =>
    cases connection : r.state.connection <;>
      simp [Run.parting, connection, Trace.Placed, FitsRequest]
  | _ => simp [Trace.Placed, FitsRequest]

/-- A session settles a request within two steps. -/
theorem settles (r : Run β) : ∃ m ≤ 2, (r.steps m).1.Settled := by
  cases hung : r.hung with
  | true => exact ⟨0, by omega, .inl hung⟩
  | false =>
    have acknowledges {r : Run β} {id : String} {status : Message} (alive : r.hung = false)
        (stage : r.state.stage = .acknowledging id status) : (r.steps 1).1.Settled := by
      have going : r.Going := ⟨alive, by simp [stage]⟩
      rw [Run.steps_succ going]
      rcases (Run.turn going).of_acknowledging stage with ⟨-, -, stuck⟩ | ⟨t, -, -, listening, -⟩
      · exact .inl stuck
      · exact .inr (by simp [Run.steps, listening])
    cases stage : r.state.stage with
    | handling id request =>
      have going : r.Going := ⟨hung, by simp [stage]⟩
      refine ⟨2, by omega, ?_⟩
      rw [Run.steps_succ going]
      rcases (Run.turn going).of_handling stage with ⟨-, -, stuck⟩ | handled
      · rw [Run.steps_of_not_going (by simp [Run.Going, stuck])]
        exact .inl stuck
      · obtain ⟨t, result, -, -, acknowledging, -, -, same, -⟩ := handled
        exact acknowledges (same.trans hung) acknowledging
    | acknowledging id status => exact ⟨1, by omega, acknowledges hung stage⟩
    | _ => exact ⟨0, by omega, .inr (by simp [Run.steps, stage])⟩

end ChannelAgent.Session
