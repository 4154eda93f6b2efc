import ChannelAgent.Proofs.Session.Told

set_option autoImplicit false

namespace ChannelAgent.Session

variable {β : Type}

namespace Event

/-- The open connections after an event, the latest in front. -/
def opens (opened : List Nat) : Event → List Nat
  | .connected connection => connection :: opened
  | .dropped connection => opened.erase connection
  | _ => opened

/-- A failed connect, a failed receive or a message without labels. A new connection is needed. -/
def loses : Event → Bool
  | .connectFailed _ | .receiveFailed _ => true
  | .received m => m.labels.isEmpty
  | _ => false

/-- A message with labels and no operation id, a failed handler or a failed status message. -/
def spares : Event → Bool
  | .received m => !m.labels.isEmpty && m.operationId?.isNone
  | .handled _ (.error _) | .sendFailed _ _ => true
  | _ => false

def isDropped : Event → Bool
  | .dropped _ => true
  | _ => false

/-- A connect attempt or a receive. -/
def seeks : Event → Bool
  | .connecting _ | .receiving _ => true
  | _ => false

end Event

/-- The connections that are open after some events. -/
def openAfter (events : List Timed) : List Nat := events.foldl (fun opened e => e.2.opens opened) []

/-- Some events without the closing of connections. -/
def acts (events : List Timed) : List Timed := events.filter fun e => !e.2.isDropped

/-- The events end with a pause that is over at an instant and was begun, without a connection, at a
loss. -/
def PausedAfterLoss (events : List Timed) (now : Nat) : Prop :=
  ∃ earlier t loss delay, events = earlier ++ [(t, .pausing delay)] ∧
    (acts earlier).getLast? = some (t, loss) ∧ loss.loses = true ∧ openAfter earlier = [] ∧
    now = t + delay.pauseMillis

/-- What must hold of an event among those before it. -/
def Orderly (before : List Timed) (e : Timed) : Prop :=
  match e.2 with
  | .receiving connection | .sending connection _ => openAfter before = [connection]
  | .connecting live =>
    live = 0 ∧ openAfter before = [] ∧ (before = [] ∨ PausedAfterLoss before e.1)
  | .pausing _ =>
    ∀ loss, (acts before).getLast? = some loss → loss.2.loses = true → openAfter before = []
  | _ => True

/-- What must come of an event, seen from a later run. After a loss there is one pause, and then a
connect attempt unless the stop signal has fired. -/
structure Sequel (last : Run β) (before : List Timed) (e : Timed) (later : List Timed) : Prop where
  reconnects : e.2.loses = true → ∃ delay next rest,
    acts later = (e.1, .pausing delay) :: next :: rest ∧
      (next = (e.1 + delay.pauseMillis, .connecting 0) ∨
        next.2 = .finished ∧ next.1 ≤ e.1 + delay.pauseMillis ∧ last.signal.fired next.1 = true)
  stays : e.2.spares = true → ∃ connection, openAfter before = [connection] ∧
    ∀ next, later.find? (fun e => e.2.seeks) = some next → next.2 = .receiving connection

/-- An event stands where it may, with at most one connection open. -/
structure Disciplined (last : Run β) (before : List Timed) (e : Timed) (later : List Timed) :
    Prop where
  single : (openAfter before).length ≤ 1
  orderly : Orderly before e
  sequel : Sequel last before e later

/-- The stages of a session that work on its connection. -/
def Stage.attached : Stage → Bool
  | .listening | .handling _ _ | .acknowledging _ _ => true
  | .connecting | .pausing _ | .finished => false

/-- What the session and the transport know of the connections after some events. -/
structure Tended (past : List Timed) (r : Run β) : Prop where
  opened : openAfter past = r.state.connection.toList
  counted : r.live = r.state.connection.toList.length
  connecting : r.hung = false → r.state.stage = .connecting →
    r.state.connection = none ∧ (past = [] ∨ PausedAfterLoss past r.now)
  pausing : ∀ delay, r.state.stage = .pausing delay → r.state.connection = none →
    PausedAfterLoss past (r.now + delay.pauseMillis)
  attached : r.state.stage.attached = true → r.state.connection.isSome = true
  finished : r.state.stage = .finished → r.state.connection = none

@[simp] theorem openAfter_append (past events : List Timed) :
    openAfter (past ++ events) = events.foldl (fun opened e => e.2.opens opened) (openAfter past) :=
  List.foldl_append

@[simp] theorem acts_append (first second : List Timed) :
    acts (first ++ second) = acts first ++ acts second :=
  List.filter_append first second

@[simp] theorem acts_nil : acts [] = [] := rfl

@[simp] theorem acts_cons (e : Timed) (rest : List Timed) :
    acts (e :: rest) = if e.2.isDropped then acts rest else e :: acts rest := by
  cases dropped : e.2.isDropped <;> simp [acts, dropped]

theorem Event.opens_of_loses {e : Event} (loses : e.loses = true) (opened : List Nat) :
    e.opens opened = opened := by
  cases e <;> first | rfl | cases loses

theorem Event.isDropped_of_loses {e : Event} (loses : e.loses = true) : e.isDropped = false := by
  cases e <;> first | rfl | cases loses

/-- Dropping the only connection leaves none open. -/
@[simp] theorem Run.opens_parting (r : Run β) (t : Nat) :
    (r.parting.map fun e => (t, e)).foldl (fun opened (e : Timed) => e.2.opens opened)
      r.state.connection.toList = [] := by
  unfold parting
  cases r.state.connection <;> simp [Event.opens]

@[simp] theorem Run.acts_parting (r : Run β) (t : Nat) :
    acts (r.parting.map fun e => (t, e)) = [] := by
  unfold parting
  cases r.state.connection <;> simp [Event.isDropped]

theorem PausedAfterLoss.closed {events : List Timed} {now : Nat}
    (paused : PausedAfterLoss events now) : openAfter events = [] := by
  obtain ⟨earlier, t, loss, delay, rfl, -, -, closed, -⟩ := paused
  rw [openAfter_append, closed]
  rfl

/-- A loss on the open connection: it is dropped, and the pause begins. -/
theorem Tended.lost {past : List Timed} {r : Run β} (tended : Tended past r) (begun t : Nat)
    (loss : Event) (delay : Duration) (loses : loss.loses = true) :
    PausedAfterLoss
      (past ++ (begun, .receiving r.current) :: (t, loss) ::
        (r.parting ++ [Event.pausing delay]).map fun e => (t, e))
      (t + delay.pauseMillis) := by
  have kept : (Event.receiving r.current).isDropped = false := rfl
  refine ⟨past ++ (begun, .receiving r.current) :: (t, loss) :: r.parting.map fun e => (t, e),
    t, loss, delay, by simp, ?_, loses, ?_, rfl⟩
  · simp [kept, Event.isDropped_of_loses loses]
  · rw [openAfter_append, tended.opened]
    simp only [List.foldl_cons, Event.opens_of_loses loses]
    exact r.opens_parting t

theorem Tended.held {past : List Timed} {r : Run β} (tended : Tended past r)
    (attached : r.state.stage.attached = true) :
    ∃ connection, r.state.connection = some connection ∧ openAfter past = [connection] := by
  obtain ⟨connection, held⟩ := Option.isSome_iff_exists.1 (tended.attached attached)
  exact ⟨connection, held, by simp [tended.opened, held]⟩

/-- Every call of a session stands in its place: it is on the open connection, or a connect attempt.
-/
theorem Tended.call {past : List Timed} {r : Run β} {begun : Event} (tended : Tended past r)
    (alive : r.hung = false) (call : r.call? = some begun) : Orderly past (r.now, begun) := by
  have current (attached : r.state.stage.attached = true) : openAfter past = [r.current] := by
    obtain ⟨connection, held, opened⟩ := tended.held attached
    simpa [Run.current, held] using opened
  unfold Run.call? at call
  split at call <;> cases call <;> rename_i stage
  · obtain ⟨unconnected, placed⟩ := tended.connecting alive stage
    simp [Orderly, tended.opened, tended.counted, unconnected, placed]
  · exact current (by simp [stage, Stage.attached])
  · exact trivial
  · exact current (by simp [stage, Stage.attached])

theorem Event.spares_of_loses {e : Event} (loses : e.loses = true) : e.spares = false := by
  cases e with
  | received m =>
    have bare : m.labels.isEmpty = true := loses
    simp [Event.spares, bare]
  | connectFailed | receiveFailed => rfl
  | _ => cases loses

theorem Sequel.idle {last : Run β} {before later : List Timed} {e : Timed} (kept : e.2.loses = false)
    (unspared : e.2.spares = false) : Sequel last before e later := by
  refine ⟨fun loses => ?_, fun spares => ?_⟩
  · rw [kept] at loses
    cases loses
  · rw [unspared] at spares
    cases spares

/-- Nothing in particular comes of events that are neither losses nor spared failures. -/
theorem placed_idle {last : Run β} {rest past events : List Timed}
    (idle : ∀ e ∈ events, e.2.loses = false ∧ e.2.spares = false) :
    Trace.Placed (Sequel last) rest past events :=
  .of_forall fun e found _ _ => .idle (idle e found).1 (idle e found).2

section

variable {past : List Timed} {r : Run β}

/-- The pause after a loss, with no connection open. -/
theorem Tended.at_pause {delay : Duration} (paused : PausedAfterLoss past (r.now + delay.pauseMillis))
    (stage : r.state.stage = .pausing delay) (unconnected : r.state.connection = none)
    (counted : r.live = 0) : Tended past r where
  opened := by
    rw [paused.closed, unconnected]
    rfl
  counted := by
    rw [counted, unconnected]
    rfl
  connecting := by simp [stage]
  pausing := by
    intro other same _
    obtain rfl := Stage.pausing.inj (stage.symm.trans same)
    exact paused
  attached := by simp [stage, Stage.attached]
  finished := fun _ => unconnected

/-- The end of the run. -/
theorem Tended.at_end (closed : openAfter past = []) (stage : r.state.stage = .finished)
    (unconnected : r.state.connection = none) (counted : r.live = 0) : Tended past r where
  opened := by
    rw [closed, unconnected]
    rfl
  counted := by
    rw [counted, unconnected]
    rfl
  connecting := by simp [stage]
  pausing := by simp [stage]
  attached := by simp [stage, Stage.attached]
  finished := fun _ => unconnected

/-- Anything that a session does while it holds a connection. -/
theorem Tended.at_work {connection : Nat} (opened : openAfter past = [connection])
    (held : r.state.connection = some connection) (counted : r.live = 1)
    (begun : r.state.stage ≠ .connecting) (going : r.state.stage ≠ .finished) : Tended past r where
  opened := by
    rw [opened, held]
    rfl
  counted := by
    rw [counted, held]
    rfl
  connecting := fun _ stage => absurd stage begun
  pausing := by simp [held]
  attached := fun _ => by simp [held]
  finished := fun stage => absurd stage going

theorem Tended.live_of_held {connection : Nat} (tended : Tended past r)
    (held : r.state.connection = some connection) : r.live = 1 := by
  rw [tended.counted, held]
  rfl

end

variable [RetryPolicy β]

theorem Tended.turn {past events : List Timed} {r next : Run β} (going : r.Going)
    (turn : Turn r next events) (tended : Tended past r) : Tended (past ++ events) next := by
  cases turn with
  | heeded | interrupted | roused =>
    refine .at_end ?_ rfl rfl (by simp [tended.counted])
    rw [openAfter_append, tended.opened]
    exact r.opens_parting _
  | endless _ call =>
    exact
      { opened := by
          unfold Run.call? at call
          split at call <;> cases call <;> simp [tended.opened, Event.opens]
        counted := tended.counted
        connecting := by simp
        pausing := by
          intro delay (stage : r.state.stage = .pausing delay)
          simp [Run.call?, stage] at call
        attached := tended.attached
        finished := fun stage => absurd stage going.2 }
  | connected stage =>
    obtain ⟨unconnected, -⟩ := tended.connecting going.1 stage
    refine .at_work ?_ rfl (by simp [tended.counted, unconnected]) (by simp) (by simp)
    simp [tended.opened, unconnected, Event.opens]
  | @refused t cause stage =>
    obtain ⟨unconnected, -⟩ := tended.connecting going.1 stage
    refine .at_pause ⟨past ++ [(r.now, .connecting r.live), (t, .connectFailed cause)], t,
      .connectFailed cause, _, by simp, ?_, rfl, ?_, rfl⟩ rfl unconnected
      (by simp [tended.counted, unconnected])
    · simp [Event.isDropped]
    · simp [tended.opened, unconnected, Event.opens]
  | @unlabelled t m _ _ _ _ bare =>
    have loses : (Event.received m).loses = true := by
      simp [Event.loses, Message.isEmpty_labels, bare]
    exact .at_pause (tended.lost r.now t (.received m) r.state.delay loses) rfl rfl
      (by simp [tended.counted])
  | @lost t cause =>
    exact .at_pause (tended.lost r.now t (.receiveFailed cause) r.state.delay rfl) rfl rfl
      (by simp [tended.counted])
  | unidentified stage | requested stage | handled stage | sent stage | unsent stage =>
    obtain ⟨connection, held, opened⟩ := tended.held (by simp [stage, Stage.attached])
    refine .at_work ?_ held (tended.live_of_held held) (by simp) (by simp)
    simp [opened, Event.opens]
  | resumed _ _ held =>
    refine .at_work ?_ held (tended.live_of_held held) (by simp) (by simp)
    simp [tended.opened, held]
  | retrying stage reaches unconnected =>
    have paused := tended.pausing _ stage unconnected
    have ends := reaches.1
    simp only [Run.ends, stage, Option.some.injEq] at ends
    exact
      { opened := by simp [tended.opened]
        counted := tended.counted
        connecting := fun _ _ => ⟨unconnected, .inr (by simpa [← ends] using paused)⟩
        pausing := by simp
        attached := by simp [Stage.attached]
        finished := by simp }

/-- The events of a step stand in their places among those before them. -/
theorem placed_orderly {past rest : List Timed} {r : Run β} (going : r.Going)
    (tended : Tended past r) :
    Trace.Placed (fun before e _ => (openAfter before).length ≤ 1 ∧ Orderly before e) rest past
      r.step.2 := by
  have turn := Run.turn going
  generalize r.step.1 = next at turn
  generalize r.step.2 = events at turn ⊢
  have opened := tended.opened
  have few : (openAfter past).length ≤ 1 := by
    rw [opened]
    cases r.state.connection <;> simp
  have called {begun : Event} (call : r.call? = some begun) :
      (openAfter past).length ≤ 1 ∧ Orderly past (r.now, begun) :=
    ⟨few, tended.call going.1 call⟩
  cases turn with
  | heeded | roused =>
    cases connection : r.state.connection <;>
      simp [Run.parting, connection, Trace.Placed, Orderly, Event.opens, opened]
  | endless _ call => exact ⟨called call, trivial⟩
  | connected stage | refused stage =>
    refine ⟨called (by simp [Run.call?, stage]), ?_⟩
    obtain ⟨unconnected, -⟩ := tended.connecting going.1 stage
    simp [Trace.Placed, Orderly, Event.opens, opened, unconnected]
  | interrupted stage =>
    refine ⟨called (by simp [Run.call?, stage, Run.current]), ?_⟩
    cases connection : r.state.connection <;>
      simp [Run.parting, connection, Trace.Placed, Orderly, Event.opens, opened]
  | unlabelled stage | lost stage =>
    refine ⟨called (by simp [Run.call?, stage, Run.current]), ?_⟩
    cases connection : r.state.connection <;>
      simp [Run.parting, connection, Trace.Placed, Orderly, Event.opens, opened]
  | unidentified stage _ _ _ labelled =>
    refine ⟨called (by simp [Run.call?, stage, Run.current]), ?_⟩
    have bare := Message.isEmpty_labels
    simp [Trace.Placed, Orderly, Event.opens, Event.isDropped, Event.loses, few, bare, labelled]
  | requested stage | handled stage | unsent stage =>
    refine ⟨called (by simp [Run.call?, stage, Run.current]), ?_⟩
    simp [Trace.Placed, Orderly, Event.opens, few]
  | sent stage => exact ⟨called (by simp [Run.call?, stage, Run.current]), trivial⟩
  | resumed | retrying => exact trivial

theorem retries {r : Run β} {delay : Duration} (n : Nat) (alive : r.hung = false)
    (stage : r.state.stage = .pausing delay) (unconnected : r.state.connection = none)
    (live : r.live = 0) :
    ∃ next rest, (r.steps (n + 2)).2 = next :: rest ∧
      (next = (r.now + delay.pauseMillis, .connecting 0) ∨
        next.2 = .finished ∧ next.1 ≤ r.now + delay.pauseMillis ∧
          (r.steps (n + 2)).1.signal.fired next.1 = true) := by
  have sought : r.sought = .connecting 0 := by simp [Run.sought, unconnected, live]
  rw [← sought]
  exact resumes n alive stage

/-- A session that has a connection holds on to it: it does not connect before it receives on it. -/
structure Holds (connection : Nat) (r : Run β) : Prop where
  held : r.state.connection = some connection
  engaged : r.state.stage ≠ .connecting

theorem Holds.turn {connection : Nat} {r next : Run β} {events : List Timed}
    (holds : Holds connection r) (turn : Turn r next events) :
    (∃ t, events.find? (fun e => e.2.seeks) = some (t, .receiving connection)) ∨
      events.find? (fun e => e.2.seeks) = none ∧ (Holds connection next ∨ ¬ next.Going) := by
  obtain ⟨held, engaged⟩ := holds
  have current : r.current = connection := by simp [Run.current, held]
  cases turn with
  | heeded | roused =>
    refine .inr ⟨?_, .inr (by simp [Run.Going])⟩
    simp [Run.parting, held, Event.seeks]
  | endless _ call =>
    unfold Run.call? at call
    split at call <;> cases call <;> rename_i stage
    · exact absurd stage engaged
    · exact .inl ⟨r.now, by simp [Event.seeks, current]⟩
    · exact .inr ⟨rfl, .inr (by simp [Run.Going])⟩
    · exact .inr ⟨rfl, .inr (by simp [Run.Going])⟩
  | connected stage | refused stage => exact absurd stage engaged
  | interrupted | unlabelled | unidentified | requested | lost =>
    exact .inl ⟨r.now, by simp [Event.seeks, current]⟩
  | handled | sent | unsent | resumed =>
    exact .inr ⟨rfl, .inl ⟨held, by simp⟩⟩
  | retrying _ _ unconnected => cases held.symm.trans unconnected

theorem Holds.steps {connection : Nat} {r : Run β} (holds : Holds connection r) (n : Nat)
    {next : Timed} (first : (r.steps n).2.find? (fun e => e.2.seeks) = some next) :
    next.2 = .receiving connection := by
  induction n generalizing r with
  | zero => simp [Run.steps] at first
  | succ n ih =>
    by_cases going : r.Going
    · rw [Run.steps_succ going, List.find?_append] at first
      rcases holds.turn (Run.turn going) with ⟨t, found⟩ | ⟨none, holds | stuck⟩
      · rw [found] at first
        cases first
        rfl
      · rw [none] at first
        exact ih holds first
      · rw [none, Run.steps_of_not_going stuck] at first
        cases first
    · simp [Run.steps_of_not_going going] at first

/-- After a loss comes a pause, and then what `retries` says. -/
theorem Sequel.retried {before : List Timed} {r : Run β} {loss : Event} {delay : Duration}
    (parting : List Timed) (n : Nat) (alive : r.hung = false)
    (stage : r.state.stage = .pausing delay)
    (unconnected : r.state.connection = none) (live : r.live = 0) (loses : loss.loses = true)
    (closing : acts parting = []) :
    Sequel (r.steps (n + 2)).1 before (r.now, loss)
      (parting ++ (r.now, .pausing delay) :: (r.steps (n + 2)).2) := by
  refine ⟨fun _ => ?_, fun spares => ?_⟩
  · obtain ⟨next, rest, found, follows⟩ := retries n alive stage unconnected live
    have kept : next.2.isDropped = false := by
      rcases follows with rfl | ⟨stops, -⟩
      · rfl
      · rw [stops]
        rfl
    refine ⟨delay, next, acts rest, ?_, follows⟩
    rw [acts_append, closing, found, acts_cons, acts_cons, kept]
    rfl
  · rw [Event.spares_of_loses loses] at spares
    cases spares

theorem Sequel.held {last : Run β} {before : List Timed} {e : Timed} {connection n : Nat} {r : Run β}
    (between : List Timed) (kept : e.2.loses = false) (opened : openAfter before = [connection])
    (quiet : between.find? (fun e => e.2.seeks) = none) (holds : Holds connection r) :
    Sequel last before e (between ++ (r.steps n).2) := by
  refine ⟨fun loses => ?_, fun _ => ⟨connection, opened, ?_⟩⟩
  · rw [kept] at loses
    cases loses
  · intro next first
    rw [List.find?_append, quiet] at first
    exact holds.steps n first

/-- What must come of the events of a step comes of them, given two more steps. -/
theorem placed_sequel {past : List Timed} {r : Run β} (n : Nat) (going : r.Going)
    (tended : Tended past r) :
    Trace.Placed (Sequel (r.step.1.steps (n + 2)).1) (r.step.1.steps (n + 2)).2 past r.step.2 := by
  have turn := Run.turn going
  generalize r.step.1 = next at turn ⊢
  generalize r.step.2 = events at turn ⊢
  cases turn with
  | heeded | roused | interrupted =>
    refine placed_idle ?_
    cases connection : r.state.connection <;>
      simp [Run.parting, connection, Event.loses, Event.spares]
  | endless _ call =>
    refine placed_idle ?_
    unfold Run.call? at call
    split at call <;> cases call <;> simp [Event.loses, Event.spares]
  | connected | sent | resumed | retrying =>
    refine placed_idle ?_
    simp [Event.loses, Event.spares]
  | requested _ _ _ _ identified =>
    refine placed_idle ?_
    have labelled := Message.hasLabels_of_operationId? identified
    simp [Event.loses, Event.spares, Message.isEmpty_labels, labelled, identified]
  | @refused t cause stage =>
    obtain ⟨unconnected, -⟩ := tended.connecting going.1 stage
    have live : r.live = 0 := by simp [tended.counted, unconnected]
    refine ⟨.idle rfl rfl, ?_, .idle rfl rfl, trivial⟩
    exact .retried [] n going.1 rfl unconnected live rfl rfl
  | @unlabelled t m stage _ _ _ bare =>
    have loses : (Event.received m).loses = true := by
      simp [Event.loses, Message.isEmpty_labels, bare]
    refine ⟨.idle rfl rfl, ?_, placed_idle ?_⟩
    · rw [List.map_append, List.append_assoc]
      refine .retried _ n going.1 rfl rfl ?_ loses (r.acts_parting t)
      simp [tended.counted]
    · cases connection : r.state.connection <;>
        simp [Run.parting, connection, Event.loses, Event.spares]
  | @lost t cause stage =>
    refine ⟨.idle rfl rfl, ?_, placed_idle ?_⟩
    · rw [List.map_append, List.append_assoc]
      refine .retried _ n going.1 rfl rfl ?_ rfl (r.acts_parting t)
      simp [tended.counted]
    · cases connection : r.state.connection <;>
        simp [Run.parting, connection, Event.loses, Event.spares]
  | @unidentified t m stage _ _ _ labelled =>
    obtain ⟨connection, held, opened⟩ := tended.held (by simp [stage, Stage.attached])
    refine ⟨.idle rfl rfl, ?_, .idle rfl rfl, trivial⟩
    refine .held [_] ?_ ?_ rfl ⟨held, nofun⟩
    · simp [Event.loses, Message.isEmpty_labels, labelled]
    · simp [opened, Event.opens]
  | handled stage | unsent stage =>
    obtain ⟨connection, held, opened⟩ := tended.held (by simp [stage, Stage.attached])
    refine ⟨.idle rfl rfl, ?_, trivial⟩
    refine .held [] rfl ?_ rfl ⟨held, nofun⟩
    simp [opened, Event.opens]

end ChannelAgent.Session
