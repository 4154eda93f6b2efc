import ChannelAgent.Backoff
import ChannelAgent.Service.Run

set_option autoImplicit false

namespace ChannelAgent.Supervision

open Service (Ending)

inductive Event
  /-- A run begins. -/
  | starting
  | running (e : Service.Event)
  /-- A run panicked, and the next one begins after the delay. -/
  | panicked (message : String) (delay : Duration)
  /-- A run returned sooner than expected. -/
  | tooShort (ran : Duration)
  | completed
  deriving DecidableEq, Repr

structure Trace where
  events : List (Nat × Event)
  /-- The instant at which the task ends, if it does. -/
  ended : Option Nat
  /-- The stop signal, with what the service added to it. -/
  signal : Signal

def Trace.after (events : List (Nat × Event)) (t : Trace) : Trace :=
  { t with events := events ++ t.events }

def ofMillis (ms : Nat) : Duration := .ofNanos (ms * 1000000)

def judge (s : Service) (started done : Nat) : List (Nat × Event) :=
  let ran := ofMillis (done - started)
  [(done, if ran.toNanos < s.minimum.toNanos then .tooShort ran else .completed)]

inductive Sequel
  /-- The task ends, or goes on for ever, with this trace. -/
  | last (t : Trace)
  /-- After the events another run is due at an instant, unless the stop signal has fired. -/
  | again (events : List (Nat × Event)) (backoff : Backoff) (calls at_ : Nat) (signal : Signal)

/-- One run, whether the stop signal has fired or not, and the delay after a panic. -/
def runOnce (s : Service) (backoff : Backoff) (calls now : Nat) (signal : Signal) : Sequel :=
  let r := s.run calls now signal
  let events := (now, .starting) :: r.events.map fun e => (e.1, .running e.2)
  match r.ending with
  | .endless => .last ⟨events, none, r.signal⟩
  | .returned done =>
    if r.signal.fired done then .last ⟨events, some done, r.signal⟩
    else .last ⟨events ++ judge s now done, some done, r.signal⟩
  | .panicked done message =>
    let (delay, backoff) := backoff.next
    let events := events ++ [(done, .panicked message delay)]
    match r.signal.wait done (some (done + delay.pauseMillis)) with
    | .due at_ => .again events backoff r.calls at_ r.signal
    | .stopped at_ => .last ⟨events, some at_, r.signal⟩
    | .never => .last ⟨events, none, r.signal⟩

/-- Supervises a service for at most `runs` runs. -/
def superviseRuns (s : Service) :
    (runs : Nat) → Backoff → (calls : Nat) → Nat → Signal → Trace
  | 0, _, _, _, signal => ⟨[], none, signal⟩
  | runs + 1, backoff, calls, now, signal =>
    if signal.fired now then ⟨[], some now, signal⟩
    else
      match runOnce s backoff calls now signal with
      | .last t => t
      | .again events backoff calls at_ signal =>
        (superviseRuns s runs backoff calls at_ signal).after events

def supervise (s : Service) (backoff : Backoff) (now : Nat) (signal : Signal) : Trace :=
  superviseRuns s (signal.patience now) backoff 0 now signal

/-- Supervises a service whose first run begins at an instant in any case. -/
def superviseStarted (s : Service) (backoff : Backoff) (now : Nat) (signal : Signal) : Trace :=
  match runOnce s backoff 0 now signal with
  | .last t => t
  | .again events backoff calls at_ signal' =>
    (superviseRuns s (signal.patience now) backoff calls at_ signal').after events

/-- Whether an event is reported under the code of the service. -/
def Event.isFailure : Event → Bool
  | .panicked _ _ | .tooShort _ => true
  | _ => false

def Event.entries (s : Service) : Event → List Log.Entry
  | .starting => [Log.debug "Starting service routine" [("service", s.name)]]
  | .running e => e.entries s
  | .panicked message delay =>
    [Log.error "Service panicked, restarting"
      [("service", s.name), ("panic", message), ("restart_in", delay.text)]]
  | .tooShort ran =>
    [Log.error "Service returned before its expected minimum duration"
      [("service", s.name), ("ran", ran.text), ("expected", s.minimum.text)]]
  | .completed => [Log.info "Service finished" [("service", s.name)]]

end ChannelAgent.Supervision
