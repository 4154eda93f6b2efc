import ChannelAgent.Proofs.Session.Told
import Mathlib.Data.Nat.Order.Lemmas

set_option autoImplicit false

namespace ChannelAgent.Session

variable {β : Type}

namespace Event

/-- A connect attempt, a receive or a handler call. A send only ends what a handler call has begun.
-/
def starts : Event → Bool
  | .connecting _ | .receiving _ | .handling _ _ _ => true
  | _ => false

end Event

def begun (events : List Timed) : List Timed := events.filter fun e => e.2.isCall

@[simp] theorem begun_append (first second : List Timed) :
    begun (first ++ second) = begun first ++ begun second :=
  List.filter_append first second

@[simp] theorem begun_cons (e : Timed) (rest : List Timed) :
    begun (e :: rest) = if e.2.isCall then e :: begun rest else begun rest := by
  cases call : e.2.isCall <;> simp [begun, call]

@[simp] theorem begun_nil : begun [] = [] := rfl

@[simp] theorem Run.begun_parting (r : Run β) (t : Nat) :
    begun (r.parting.map fun e => (t, e)) = [] := by
  unfold parting
  cases r.state.connection <;> simp [Event.isCall]

namespace Run

/-- The stop signal fires at an instant, and what a run does then is not over before. -/
structure Caught (r : Run β) (c : Nat) : Prop where
  going : r.Going
  unfired : ¬ r.Stopping
  fires : r.signalled.firesAt = some c
  busy : ∀ t, r.ends = some t → c ≤ t

/-- A run has returned at an instant, or waits for ever if there is none. -/
def Returned (r : Run β) : Option Nat → Prop
  | some t => r.state.stage = .finished ∧ r.now = t
  | none => r.hung = true

variable [RetryPolicy β]

/-- The stop signal of a session fires at an instant in the end, whoever gives it. -/
def FiresAt (session : Run β) (c : Nat) : Prop :=
  ∃ settled, ∀ n, settled ≤ n → (session.steps n).1.signal.firesAt = some c

/-- Only finitely many calls of a session are over by an instant. -/
def Sparse (session : Run β) (c : Nat) : Prop :=
  ∃ bound, ∀ n, ((session.steps n).2.filter fun e => e.2.completes && e.1 ≤ c).length ≤ bound

/-- No call of a session is over at the very instant at which the stop signal fires. -/
def Untied (session : Run β) : Prop :=
  ∀ n c, (session.steps n).1.Caught c → (session.steps n).1.call?.isSome = true →
    (session.steps n).1.ends ≠ some c

end Run

variable [RetryPolicy β]

/-- The calls that a run makes from the one on in which the stop signal catches it, and when it
returns. -/
inductive Outcome (c : Nat) (r : Run β) : List Timed → Option Nat → Prop
  | pausing {delay : Duration} (stage : r.state.stage = .pausing delay) : Outcome c r [] (some c)
  | listening (stage : r.state.stage = .listening) :
      Outcome c r [(r.now, .receiving r.current)] (some c)
  | connecting (stage : r.state.stage = .connecting) :
      Outcome c r [(r.now, .connecting r.live)] r.ends
  | acknowledging {id : String} {status : Message}
      (stage : r.state.stage = .acknowledging id status) :
      Outcome c r [(r.now, .sending r.current status)] r.ends
  /-- The run returns at the end of the send that follows the handler call. -/
  | handling {id : String} {request : Option Body} {t : Nat}
      (result : Except String (Option Body)) (stage : r.state.stage = .handling id request)
      (returns : r.ends = some t) :
      Outcome c r
        [(r.now, .handling request r.properties false),
          (t, .sending r.current (State.acknowledgement id result))]
        r.step.1.ends
  | endless {id : String} {request : Option Body} (stage : r.state.stage = .handling id request)
      (never : r.ends = none) :
      Outcome c r [(r.now, .handling request r.properties false)] none

section Stopping

variable {r : Run β}

/-- A session that heeds the stop signal returns at once. -/
theorem steps_of_heeding (alive : r.hung = false) (stopping : r.Stopping)
    (heeds : r.state.heedsStop = true) (n : Nat) :
    r.steps (n + 1) = r.goOn r.now r.state.finish := by
  have going : r.Going := by
    refine ⟨alive, fun finished => ?_⟩
    simp [State.heedsStop, finished] at heeds
  have stops : r.step = r.goOn r.now r.state.finish := by
    have fired : r.signal.fired r.now = true := stopping
    simp [Run.step, fired, heeds]
  have ended : ¬ (r.goOn r.now r.state.finish).1.Going := by
    simp [Run.Going, Run.goOn, State.finish]
  rw [Run.steps_succ going, stops, Run.steps_of_not_going ended, List.append_nil]

/-- A session that is stopped between two calls returns at once. -/
theorem halts (alive : r.hung = false) (stopping : r.Stopping)
    (idle : r.state.heedsStop = true ∨ ∃ delay, r.state.stage = .pausing delay) (n : Nat) :
    begun (r.steps (n + 2)).2 = [] ∧ (r.steps (n + 2)).1.Returned (some r.now) := by
  have heeded {r : Run β} (alive : r.hung = false) (stopping : r.Stopping)
      (heeds : r.state.heedsStop = true) (n : Nat) :
      begun (r.steps (n + 1)).2 = [] ∧ (r.steps (n + 1)).1.Returned (some r.now) := by
    rw [steps_of_heeding alive stopping heeds]
    refine ⟨?_, rfl, rfl⟩
    rw [Run.goOn, Run.finish_eq, List.map_cons, begun_cons, r.begun_parting]
    rfl
  rcases idle with heeds | ⟨delay, stage⟩
  · exact heeded alive stopping heeds (n + 1)
  · obtain ⟨c, fires, before⟩ := (Signal.fired_iff _ _).1 stopping
    have signal := Run.signalled_of_pausing stage
    have going : r.Going := ⟨alive, by simp [stage]⟩
    rw [Run.steps_succ going]
    rcases (Run.turn going).of_pausing stage with
      ⟨reaches, quiet, rested⟩ | ⟨c', misses, stops, ended, at_⟩
    · have now : r.now + delay.pauseMillis = r.now := by
        have := reaches.2 c (signal ▸ fires)
        omega
      rw [now] at rested
      have heeds : r.step.1.state.heedsStop = true := by
        rw [rested]
        cases connection : r.state.connection <;> simp [State.heedsStop, State.onRested, connection]
      have still : r.step.1.now = r.now := by rw [rested]
      rw [quiet, List.nil_append, ← still]
      exact heeded (by rw [rested]; exact alive) (by rw [rested]; exact stopping) heeds n
    · have same : c = c' := Option.some.inj (fires.symm.trans (signal ▸ misses.1))
      subst same
      rw [Nat.max_eq_right before] at stops at_
      rw [Run.steps_of_not_going (by simp [Run.Going, ended]), stops, List.append_nil, begun_cons,
        r.begun_parting]
      exact ⟨rfl, ended, at_⟩

theorem Turn.stopping {next : Run β} {events : List Timed} {c : Nat} (turn : Turn r next events)
    (fires : r.signalled.firesAt = some c) (ended : c ≤ next.now) : next.Stopping := by
  refine (Signal.fired_iff _ _).2 ⟨c, ?_, ended⟩
  rw [turn.signal_eq]
  exact fires

/-- A session that is sending when the stop signal fires, or afterwards, returns at the end of the
send. -/
theorem sends_and_halts {id : String} {status : Message} {c : Nat} (alive : r.hung = false)
    (stage : r.state.stage = .acknowledging id status) (fires : r.signalled.firesAt = some c)
    (busy : ∀ t, r.ends = some t → c ≤ t) (n : Nat) :
    begun (r.steps (n + 3)).2 = [(r.now, .sending r.current status)] ∧
      (r.steps (n + 3)).1.Returned r.ends := by
  have going : r.Going := ⟨alive, by simp [stage]⟩
  have turn := Run.turn going
  rw [Run.steps_succ going]
  rcases turn.of_acknowledging stage with ⟨never, events, stuck⟩ | sent
  · rw [Run.steps_of_not_going (by simp [Run.Going, stuck]), events, never]
    exact ⟨rfl, stuck⟩
  · obtain ⟨t, ends, events, listening, -, now, hung, -⟩ := sent
    have stopping : r.step.1.Stopping := turn.stopping fires (by rw [now]; exact busy t ends)
    have heeds : r.step.1.state.heedsStop = true := by simp [State.heedsStop, listening]
    obtain ⟨silent, returned⟩ := halts (hung.trans alive) stopping (.inl heeds) n
    rw [begun_append, silent, ends, ← now]
    refine ⟨?_, returned⟩
    rcases events with events | ⟨cause, events⟩ <;> rw [events] <;> rfl

/-- A session that is connecting when the stop signal fires returns when that comes to something. -/
theorem connects_and_halts {c : Nat} (caught : r.Caught c) (stage : r.state.stage = .connecting)
    (n : Nat) :
    begun (r.steps (n + 3)).2 = [(r.now, .connecting r.live)] ∧
      (r.steps (n + 3)).1.Returned r.ends := by
  obtain ⟨going, unfired, fires, busy⟩ := caught
  have turn := Run.turn going
  rw [Run.steps_succ going]
  generalize r.step.1 = next at turn ⊢
  generalize r.step.2 = events at turn ⊢
  have halted (alive : next.hung = false) (ended : c ≤ next.now)
      (idle : next.state.heedsStop = true ∨ ∃ delay, next.state.stage = .pausing delay) :=
    halts alive (turn.stopping fires ended) idle n
  cases turn with
  | heeded stopping => exact absurd stopping unfired
  | endless _ call never =>
    simp only [Run.call?, stage, Option.some.injEq] at call
    subst call
    rw [Run.steps_of_not_going (by simp [Run.Going]), never]
    exact ⟨rfl, rfl⟩
  | connected _ _ ends =>
    obtain ⟨silent, returned⟩ := halted going.1 (busy _ ends) (.inl (by simp [State.heedsStop]))
    rw [begun_append, silent, ends]
    exact ⟨rfl, returned⟩
  | refused _ _ ends =>
    obtain ⟨silent, returned⟩ := halted going.1 (busy _ ends) (.inr ⟨_, rfl⟩)
    rw [begun_append, silent, ends]
    exact ⟨rfl, returned⟩
  | interrupted other | unlabelled other | unidentified other | requested other
  | lost other | handled other | sent other | unsent other | resumed other | retrying other
  | roused other => cases stage.symm.trans other

/-- A session that is receiving when the stop signal fires returns at once. -/
theorem receives_and_halts {c : Nat} (caught : r.Caught c) (stage : r.state.stage = .listening)
    (untied : r.ends ≠ some c) (n : Nat) :
    begun (r.steps (n + 1)).2 = [(r.now, .receiving r.current)] ∧
      (r.steps (n + 1)).1.Returned (some c) := by
  obtain ⟨going, unfired, fires, busy⟩ := caught
  -- a receive that is over is over before the signal fires
  have missed {t : Nat} (reaches : r.Reaches t) : False := by
    have le := Run.le_of_signalled unfired fires
    have late := busy t reaches.1
    have early := reaches.2 c fires
    have tied : t = c := by omega
    exact untied (tied ▸ reaches.1)
  have turn := Run.turn going
  rw [Run.steps_succ going]
  generalize r.step.1 = next at turn ⊢
  generalize r.step.2 = events at turn ⊢
  cases turn with
  | heeded stopping => exact absurd stopping unfired
  | endless _ _ _ silent =>
    rw [silent stage] at fires
    cases fires
  | interrupted _ _ misses =>
    obtain rfl := Option.some.inj (fires.symm.trans misses.1)
    rw [Run.steps_of_not_going (by simp [Run.Going]), List.append_nil]
    refine ⟨?_, rfl, rfl⟩
    simp [Event.isCall]
  | unlabelled _ _ reaches | unidentified _ _ reaches | requested _ _ reaches
  | lost _ _ reaches => exact (missed reaches).elim
  | connected other | refused other | handled other | sent other | unsent other | resumed other
  | retrying other | roused other => cases stage.symm.trans other

/-- What the stop signal catches goes on as `Outcome` says. -/
theorem Run.Caught.outcome {c : Nat} (caught : r.Caught c)
    (untied : r.call?.isSome = true → r.ends ≠ some c) :
    ∃ calls returned, Outcome c r calls returned ∧ ∀ n,
      begun (r.steps (n + 4)).2 = calls ∧ (r.steps (n + 4)).1.Returned returned := by
  obtain ⟨going, unfired, fires, busy⟩ := id caught
  have turn := Run.turn going
  have onward (n : Nat) := Run.steps_succ going (n + 3)
  have unstopped : r.signal.fired r.now = false := by simpa [Run.Stopping] using unfired
  cases stage : r.state.stage with
  | connecting =>
    exact ⟨_, _, .connecting stage, fun n => connects_and_halts caught stage (n + 1)⟩
  | listening =>
    have untied := untied (by simp [Run.call?, stage])
    exact ⟨_, _, .listening stage, fun n => receives_and_halts caught stage untied (n + 3)⟩
  | handling id request =>
    rcases turn.of_handling stage with ⟨never, events, stuck⟩ | handled
    · refine ⟨_, _, .endless stage never, fun n => ?_⟩
      rw [onward, Run.steps_of_not_going (by simp [Run.Going, stuck]), events, unstopped]
      exact ⟨rfl, stuck⟩
    · obtain ⟨t, result, ends, events, acknowledging, connection, now, hung, signal⟩ := handled
      refine ⟨_, _, .handling result stage ends, fun n => ?_⟩
      have same : r.step.1.current = r.current := by simp only [Run.current, connection]
      have stopping : r.step.1.Stopping := turn.stopping fires (by rw [now]; exact busy t ends)
      have fires' : r.step.1.signalled.firesAt = some c := by
        rw [Run.signalled_of_stopping stopping, signal, fires]
      have busy' : ∀ t', r.step.1.ends = some t' → c ≤ t' := by
        intro t' ends'
        have := Run.le_of_ends ends'
        have := busy t ends
        omega
      obtain ⟨sent, returned⟩ :=
        sends_and_halts (hung.trans going.1) acknowledging fires' busy' n
      rw [onward, begun_append, sent, events, same, now, unstopped]
      exact ⟨rfl, returned⟩
  | acknowledging id status =>
    exact ⟨_, _, .acknowledging stage, fun n => sends_and_halts going.1 stage fires busy (n + 1)⟩
  | pausing delay =>
    refine ⟨_, _, .pausing stage, fun n => ?_⟩
    have signal := Run.signalled_of_pausing stage
    have later : r.now < c := (r.signal.not_fired_iff r.now).1 unstopped c (signal ▸ fires)
    rcases turn.of_pausing stage with ⟨reaches, -⟩ | ⟨c', misses, stops, ended, at_⟩
    · have ends := busy _ reaches.1
      have early := reaches.2 c fires
      omega
    · obtain rfl := Option.some.inj (fires.symm.trans misses.1)
      rw [Nat.max_eq_left (Nat.le_of_lt later)] at stops at_
      rw [onward, Run.steps_of_not_going (by simp [Run.Going, ended]), stops, List.append_nil,
        begun_cons, r.begun_parting]
      exact ⟨rfl, ended, at_⟩
  | finished => exact absurd stage going.2

end Stopping

/-- The events of a session are past, and what it handles is a message that came before the stop
signal. -/
structure Timely (past : List Timed) (r : Run β) : Prop where
  elapsed : ∀ e ∈ past, e.1 ≤ r.now
  serving : ∀ id request, r.state.stage = .handling id request → r.hung = false →
    ¬ r.Stopping ∧ ∃ m, (r.now, .received m) ∈ past

section Turning

variable {r next : Run β} {events : List Timed}

/-- The call of a turn begins at its start, and a connect attempt or a receive only before the stop
signal. -/
theorem Turn.of_isCall (turn : Turn r next events) {e : Timed} (shown : e ∈ events)
    (isCall : e.2.isCall = true) :
    r.call? = some e.2 ∧ e.1 = r.now ∧ (r.Stopping → r.state.heedsStop = false) := by
  have member : e ∈ begun events := List.mem_filter.2 ⟨shown, isCall⟩
  have heedless {P : Prop} (quiet : ¬ r.Stopping) : r.Stopping → P := fun stopping =>
    absurd stopping quiet
  cases turn with
  | heeded | roused => simp [Event.isCall] at member
  | resumed | retrying => simp at member
  | endless going call =>
    simp [begun] at member
    obtain ⟨rfl, -⟩ := member
    exact ⟨call, rfl, going⟩
  | connected stage quiet | refused stage quiet =>
    simp [Event.isCall] at member
    subst member
    exact ⟨by simp [Run.call?, stage], rfl, heedless quiet⟩
  | interrupted stage quiet | unlabelled stage quiet | unidentified stage quiet
  | requested stage quiet | lost stage quiet =>
    simp [Event.isCall] at member
    subst member
    exact ⟨by simp [Run.call?, stage], rfl, heedless quiet⟩
  | handled stage | sent stage | unsent stage =>
    simp [Event.isCall] at member
    subst member
    exact ⟨by simp [Run.call?, stage], rfl, fun _ => by simp [State.heedsStop, stage]⟩

/-- A request that arrives arrives before the stop signal, unless the signal fires at that very
instant. -/
theorem Turn.of_request {id : String} {request : Option Body} (turn : Turn r next events)
    (going : r.Going) (untied : ∀ c, r.Caught c → r.call?.isSome = true → r.ends ≠ some c)
    (stage : next.state.stage = .handling id request) (alive : next.hung = false) :
    ¬ next.Stopping ∧ ∃ m, (next.now, .received m) ∈ events := by
  cases turn with
  | @requested t m _ same quiet reaches =>
    refine ⟨fun stopping => ?_, m, by simp⟩
    obtain ⟨c, fires, before⟩ := (Signal.fired_iff _ _).1 stopping
    have le : r.now ≤ c := Run.le_of_signalled quiet fires
    have early := reaches.2 c fires
    have tied : t = c := by
      change c ≤ t at before
      omega
    subst tied
    have busy : ∀ t', r.ends = some t' → t ≤ t' := by
      intro t' ends
      rw [Option.some.inj (reaches.1.symm.trans ends)]
    exact untied t ⟨going, quiet, fires, busy⟩ (by simp [Run.call?, same]) reaches.1
  | endless => cases alive
  | heeded | interrupted | roused | connected | refused | unlabelled | unidentified | lost | handled
  | sent | unsent | resumed | retrying => cases stage

theorem Timely.turn {past : List Timed} (turn : Turn r next events) (going : r.Going)
    (untied : ∀ c, r.Caught c → r.call?.isSome = true → r.ends ≠ some c) (timely : Timely past r) :
    Timely (past ++ events) next := by
  refine ⟨?_, ?_⟩
  · intro e shown
    rcases List.mem_append.1 shown with before | now
    · exact Nat.le_trans (timely.elapsed e before) turn.instants.1
    · exact turn.instants.2 e now
  · intro id request stage alive
    obtain ⟨quiet, m, received⟩ := turn.of_request going untied stage alive
    exact ⟨quiet, m, List.mem_append_right _ received⟩

/-- New work begins at the start of a turn, and before the stop signal. -/
theorem Timely.of_starts {past : List Timed} (timely : Timely past r) (turn : Turn r next events)
    (going : r.Going) {e : Timed} (shown : e ∈ events) (starts : e.2.starts = true) :
    e.1 = r.now ∧ ¬ r.Stopping := by
  have isCall : e.2.isCall = true := by
    revert starts
    cases e.2 <;> simp [Event.starts, Event.isCall]
  obtain ⟨call, now, heedless⟩ := turn.of_isCall shown isCall
  refine ⟨now, ?_⟩
  unfold Run.call? at call
  split at call <;> rename_i stage
  · intro stopping
    have stays := heedless stopping
    simp [State.heedsStop, stage] at stays
  · intro stopping
    have stays := heedless stopping
    simp [State.heedsStop, stage] at stays
  · exact (timely.serving _ _ stage going.1).1
  · rw [← Option.some.inj call] at starts
    cases starts
  · cases call
  · cases call

/-- A handler call is for a message that has just come, and sees that the stop signal has not fired.
-/
theorem Timely.of_handling {past : List Timed} {t : Nat} {request : Option Body}
    {properties : CloudProperties} {stopping : Bool} (timely : Timely past r)
    (turn : Turn r next events) (going : r.Going)
    (shown : (t, .handling request properties stopping) ∈ events) :
    stopping = false ∧ ∃ m, (t, .received m) ∈ past := by
  obtain ⟨call, now, -⟩ := turn.of_isCall shown rfl
  change t = r.now at now
  subst now
  unfold Run.call? at call
  split at call <;> cases call
  rename_i stage
  obtain ⟨quiet, received⟩ := timely.serving _ _ stage going.1
  exact ⟨by simpa [Run.Stopping] using quiet, received⟩

/-- Every turn completes a call, except those that lead back to connecting or receiving. -/
theorem Turn.progress (turn : Turn r next events) (onward : next.Going) :
    (∃ e ∈ events, e.2.completes = true) ∨
      r.state.heedsStop = false ∧ next.state.heedsStop = true := by
  cases turn with
  | heeded | interrupted | roused => exact absurd rfl onward.2
  | endless => cases onward.1
  | connected | refused | unlabelled | unidentified | requested | lost | handled | unsent =>
    refine .inl ?_
    simp [Event.completes]
  | sent stage | resumed stage | retrying stage =>
    refine .inr ?_
    simp [State.heedsStop, stage]

/-- A turn in which the stop signal fires does not end before it does. -/
theorem Turn.le_of_stopped {c t : Nat} (turn : Turn r next events) (going : r.Going)
    (quiet : ¬ r.Stopping) (fires : r.signalled.firesAt = some c)
    (ended : next.Going → next.Stopping) (ends : r.ends = some t) : c ≤ t := by
  have late (onward : next.Going) : c ≤ next.now := by
    obtain ⟨c', fires', before⟩ := (Signal.fired_iff _ _).1 (ended onward)
    rw [turn.signal_eq, fires] at fires'
    rw [Option.some.inj fires']
    exact before
  cases turn with
  | heeded stopping => exact absurd stopping quiet
  | endless _ _ never => cases ends.symm.trans never
  | interrupted _ _ misses | roused _ misses =>
    obtain rfl := Option.some.inj (fires.symm.trans misses.1)
    exact (misses.2 t ends).2
  | connected _ _ done | refused _ _ done | handled _ done | sent _ done | unsent _ done =>
    obtain rfl := Option.some.inj (ends.symm.trans done)
    exact late ⟨going.1, nofun⟩
  | unlabelled _ _ reaches | unidentified _ _ reaches | requested _ _ reaches
  | lost _ _ reaches | resumed _ reaches | retrying _ reaches =>
    obtain rfl := Option.some.inj (ends.symm.trans reaches.1)
    exact late ⟨going.1, nofun⟩

end Turning

section Reaching

variable {session : Run β} {c : Nat}

/-- Two steps that leave a session going complete a call. -/
theorem completes_in_two {r : Run β} (onward : (r.steps 2).1.Going) :
    ∃ e ∈ (r.steps 2).2, e.2.completes = true := by
  have going : r.Going := Run.going_of_steps onward
  rw [Run.steps_succ going] at onward ⊢
  have going' : r.step.1.Going := Run.going_of_steps onward
  rw [Run.steps_succ going'] at onward ⊢
  simp only [Run.steps, List.append_nil] at onward ⊢
  rcases (Run.turn going).progress going' with ⟨e, shown, completes⟩ | ⟨-, heeds⟩
  · exact ⟨e, List.mem_append_left _ shown, completes⟩
  · rcases (Run.turn going').progress onward with ⟨e, shown, completes⟩ | ⟨heedless, -⟩
    · exact ⟨e, List.mem_append_right _ shown, completes⟩
    · cases heeds.symm.trans heedless

theorem le_completions (m : Nat) {r : Run β} (onward : (r.steps (2 * m)).1.Going) :
    m ≤ ((r.steps (2 * m)).2.filter fun e => e.2.completes).length := by
  induction m generalizing r with
  | zero => exact Nat.zero_le _
  | succ m ih =>
    have split := r.steps_add 2 (2 * m)
    rw [show 2 * (m + 1) = 2 + 2 * m by omega, split] at onward ⊢
    obtain ⟨e, shown, completes⟩ := completes_in_two (Run.going_of_steps onward)
    have first : 0 < ((r.steps 2).2.filter fun e => e.2.completes).length :=
      List.length_pos_of_mem (List.mem_filter.2 ⟨shown, completes⟩)
    have rest := ih onward
    rw [List.filter_append, List.length_append]
    omega

/-- A stop signal that fires after some steps was already to fire then, or it was given on the way.
-/
theorem fires_later (n : Nat) {r : Run β} (fires : (r.steps n).1.signal.firesAt = some c) :
    r.signal.firesAt = some c ∨ r.now ≤ c := by
  induction n generalizing r with
  | zero => exact .inl fires
  | succ n ih =>
    by_cases going : r.Going
    · have turn := Run.turn going
      rw [Run.steps_succ going] at fires
      rcases ih fires with same | later
      · rw [turn.signal_eq] at same
        rcases Run.of_signalled same with before | rfl
        · exact .inl before
        · exact .inr (Nat.le_refl _)
      · exact .inr (Nat.le_trans turn.instants.1 later)
    · rw [Run.steps_of_not_going going] at fires
      exact .inl fires

theorem fires_no_later (n : Nat) {r : Run β} {c : Nat} (fires : r.signal.firesAt = some c) :
    ∃ c', c' ≤ c ∧ (r.steps n).1.signal.firesAt = some c' := by
  induction n generalizing r c with
  | zero => exact ⟨c, Nat.le_refl c, fires⟩
  | succ n ih =>
    by_cases going : r.Going
    · obtain ⟨c', le', fires'⟩ := Run.signalled_le fires
      rw [← (Run.turn going).signal_eq] at fires'
      obtain ⟨c'', le'', fires''⟩ := ih fires'
      rw [Run.steps_succ going]
      exact ⟨c'', Nat.le_trans le'' le', fires''⟩
    · rw [Run.steps_of_not_going going]
      exact ⟨c, Nat.le_refl c, fires⟩

/-- While the stop signal has not fired, it is not too late, and still early if the signal was to
fire then from the start. -/
theorem Run.FiresAt.le_of_quiet {k : Nat} (fires : session.FiresAt c)
    (quiet : ¬ (session.steps k).1.Stopping) :
    (session.steps k).1.now ≤ c ∧
      (session.signal.firesAt = some c → (session.steps k).1.now < c) := by
  obtain ⟨settled, signal⟩ := fires
  have last := signal (k + settled) (Nat.le_add_left _ _)
  rw [Run.steps_add] at last
  have unfired : (session.steps k).1.signal.fired (session.steps k).1.now = false := by
    simpa [Run.Stopping] using quiet
  have later := (Signal.not_fired_iff _ _).1 unfired
  constructor
  · rcases fires_later settled last with same | le
    · exact Nat.le_of_lt (later c same)
    · exact le
  · intro first
    obtain ⟨c', le', fires'⟩ := fires_no_later k first
    obtain ⟨c'', le'', fires''⟩ := fires_no_later settled fires'
    obtain rfl := Option.some.inj (last.symm.trans fires'')
    exact Nat.lt_of_lt_of_le (later c' fires') le'

/-- Once the stop signal has fired it stays as it is. -/
theorem signal_of_stopping (n : Nat) {r : Run β} (stopping : r.Stopping) :
    (r.steps n).1.signal = r.signal := by
  induction n generalizing r with
  | zero => rfl
  | succ n ih =>
    by_cases going : r.Going
    · have turn := Run.turn going
      have same : r.step.1.signal = r.signal := by
        rw [turn.signal_eq, Run.signalled_of_stopping stopping]
      have fired : r.step.1.Stopping := by
        rw [Run.Stopping, same]
        exact Signal.fired_mono stopping turn.instants.1
      rw [Run.steps_succ going, ih fired, same]
    · rw [Run.steps_of_not_going going]

/-- A session that is stopped, or goes no further, knows when the stop signal fires. -/
theorem Run.FiresAt.settled {k : Nat} (fires : session.FiresAt c)
    (ended : ¬ (session.steps k).1.Going ∨ (session.steps k).1.Stopping) :
    (session.steps k).1.signal.firesAt = some c := by
  obtain ⟨settled, signal⟩ := fires
  have last := signal (k + settled) (Nat.le_add_left _ _)
  rcases ended with stuck | stopping
  · rwa [Run.steps_of_ended stuck (Nat.le_add_right _ _)] at last
  · rwa [Run.steps_add, signal_of_stopping settled stopping] at last

/-- A session with finitely many calls that are over by the stop signal comes to the signal or goes
no further before. -/
theorem comes_to_signal (fires : session.FiresAt c) (sparse : session.Sparse c)
    (elapsed : ∀ n, ∀ e ∈ (session.steps n).2, e.1 ≤ (session.steps n).1.now) :
    ∃ n, ¬ ((session.steps n).1.Going ∧ ¬ (session.steps n).1.Stopping) := by
  obtain ⟨settled, signal⟩ := fires
  obtain ⟨bound, few⟩ := sparse
  obtain ⟨m, enough, exceeds⟩ : ∃ m, settled ≤ 2 * m ∧ bound < m :=
    ⟨settled + bound + 1, by omega, by omega⟩
  refine ⟨2 * m, fun ⟨going, unfired⟩ => ?_⟩
  have early : (session.steps (2 * m)).1.now ≤ c := by
    by_contra late
    exact unfired ((Signal.fired_iff _ _).2 ⟨c, signal (2 * m) enough, by omega⟩)
  have all : (session.steps (2 * m)).2.filter (fun e => e.2.completes) =
      (session.steps (2 * m)).2.filter fun e => e.2.completes && e.1 ≤ c := by
    apply List.filter_congr
    intro e shown
    have past := elapsed (2 * m) e shown
    simp only [show e.1 ≤ c by omega, decide_true, Bool.and_true]
  have many := le_completions m going
  rw [all] at many
  exact absurd (few (2 * m)) (by omega)

theorem catches (start : session.Going) (unfired : ¬ session.Stopping) (fires : session.FiresAt c)
    (sparse : session.Sparse c)
    (elapsed : ∀ n, ∀ e ∈ (session.steps n).2, e.1 ≤ (session.steps n).1.now) :
    ∃ k, (session.steps k).1.Caught c := by
  -- the last step before the session is stopped or goes no further
  obtain ⟨k, running, ended⟩ :=
    Nat.exists_not_and_succ_of_not_zero_of_exists (not_not.2 ⟨start, unfired⟩)
      (comes_to_signal fires sparse elapsed)
  obtain ⟨going, quiet⟩ := not_not.1 running
  have turn := Run.turn going
  have next : (session.steps (k + 1)).1 = (session.steps k).1.step.1 := by
    rw [Run.steps_add, Run.steps_succ going]
    rfl
  have stopped (onward : (session.steps (k + 1)).1.Going) : (session.steps (k + 1)).1.Stopping := by
    by_contra quiet
    exact ended ⟨onward, quiet⟩
  have signal : (session.steps k).1.signalled.firesAt = some c := by
    rw [← turn.signal_eq, ← next]
    exact fires.settled (not_or_of_imp stopped)
  rw [next] at stopped
  exact ⟨k, going, quiet, signal, fun t ends => turn.le_of_stopped going quiet signal stopped ends⟩

end Reaching

/-- A session stops promptly and cleanly. No connect attempt, receive or handler call begins after
the stop signal, nor at the same instant if the signal comes from outside, and a handler is called
only for a message that came before it. A session that is stopped before it starts returns at once
and without a failure. Every other session comes to the instant at which the signal fires, if only
finitely many calls are over by then, and goes on from there as `Outcome` says: out of a receive or
a pause it returns at that instant, and otherwise at the end of the connect, of the send or of the
send that follows the handler call. -/
theorem stops_promptly (earlier : Run β) (signal : Signal) (script : Script)
    (properties : CloudProperties) (c : Nat)
    (fires : (earlier.again signal script properties).FiresAt c)
    (sparse : (earlier.again signal script properties).Sparse c)
    (untied : (earlier.again signal script properties).Untied) :
    let session := earlier.again signal script properties
    (∀ n, ∀ e ∈ (session.steps n).2, e.2.starts = true →
      e.1 ≤ c ∧ (session.signal.firesAt = some c → e.1 < c)) ∧
      (∀ n t request given stopping,
        (t, .handling request given stopping) ∈ (session.steps n).2 →
          stopping = false ∧ ∃ m, (t, .received m) ∈ (session.steps n).2) ∧
      (session.Stopping → ∀ n,
        (session.steps (n + 1)).2 = [(session.now, .finished)] ∧
          (session.steps (n + 1)).1.Returned (some session.now) ∧
          (session.steps (n + 1)).1.state.result = .ok ()) ∧
      (¬ session.Stopping → ∃ k, (session.steps k).1.Caught c) ∧
      ∀ k, (session.steps k).1.Caught c →
        ∃ calls returned, Outcome c (session.steps k).1 calls returned ∧ ∀ n,
          begun (session.steps (k + (n + 4))).2 = begun (session.steps k).2 ++ calls ∧
            (session.steps (k + (n + 4))).1.Returned returned := by
  intro session
  have start : Timely [] session := ⟨nofun, nofun⟩
  have timely (n : Nat) : Timely (session.steps n).2 (session.steps n).1 :=
    steps_keep start (fun k _ _ going turn kept => kept.turn turn going (untied k)) n
  refine ⟨?_, ?_, ?_, ?_, ?_⟩
  · intro n e shown starts
    obtain ⟨k, -, going, now⟩ := Run.mem_steps shown
    obtain ⟨at_, quiet⟩ := (timely k).of_starts (Run.turn going) going now starts
    rw [at_]
    exact fires.le_of_quiet quiet
  · intro n t request given stopping shown
    obtain ⟨k, less, going, now⟩ := Run.mem_steps shown
    obtain ⟨unfired, m, received⟩ := (timely k).of_handling (Run.turn going) going now
    exact ⟨unfired, m, Run.mem_steps_of_le received (Nat.le_of_lt less)⟩
  · intro stopping n
    rw [steps_of_heeding rfl stopping rfl]
    exact ⟨rfl, ⟨rfl, rfl⟩, rfl⟩
  · intro unfired
    exact catches ⟨rfl, nofun⟩ unfired fires sparse fun n => (timely n).elapsed
  · intro k caught
    obtain ⟨calls, returned, outcome, goes⟩ := caught.outcome (untied k c caught)
    refine ⟨calls, returned, outcome, fun n => ?_⟩
    obtain ⟨same, back⟩ := goes n
    rw [Run.steps_add, begun_append, same]
    exact ⟨rfl, back⟩

/-- One request after 2 ms, whose handler takes 10 ms and whose status message takes 3 ms. -/
def oneRequest : Script where
  connects := [⟨false, some 1, .ok ()⟩]
  connectDefault := ⟨false, some 0, .error .closed⟩
  receives := [⟨false, some 1, .ok (.status "job" .succeeded none)⟩]
  sends := [⟨false, some 3, none⟩]
  handles := [(⟨false, some 10, .echo⟩, false)]

theorem stops_promptly_in_handler :
    let session := (Run.start Backoff.standard 0 .silent oneRequest {}).again ⟨some 5⟩ oneRequest {}
    session.FiresAt 5 ∧ session.Sparse 5 ∧ session.Untied ∧
      ∃ k, (session.steps k).1.Caught 5 := by
  intro session
  have ended : ¬ (session.steps 5).1.Going := by decide
  have last (n : Nat) (le : 5 ≤ n) : session.steps n = session.steps 5 :=
    Run.steps_of_ended ended le
  have fires : session.FiresAt 5 := ⟨5, fun n le => by rw [last n le]; decide⟩
  have sparse : session.Sparse 5 := by
    refine ⟨6, fun n => ?_⟩
    have few : ∀ n < 6,
        ((session.steps n).2.filter fun e => e.2.completes && e.1 ≤ 5).length ≤ 6 := by
      decide
    by_cases early : n < 6
    · exact few n early
    · rw [last n (by omega)]
      exact few 5 (by decide)
  have untied : session.Untied := by
    have apart : ∀ n < 5, (session.steps n).1.ends ≠ (session.steps n).1.signalled.firesAt := by
      decide
    intro n c caught _ ends
    by_cases early : n < 5
    · exact apart n early (ends.trans caught.fires.symm)
    · rw [last n (by omega)] at caught
      exact ended caught.going
  obtain ⟨-, -, -, caught, -⟩ := stops_promptly _ _ _ _ 5 fires sparse untied
  exact ⟨fires, sparse, untied, caught (by decide)⟩

end ChannelAgent.Session
