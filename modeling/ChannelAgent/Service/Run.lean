import ChannelAgent.Service.Basic

set_option autoImplicit false

namespace ChannelAgent.Service

structure Result extends Course where
  /-- How many calls were made so far, in this run and before it. -/
  calls : Nat

def Result.after (events : List (Nat × Event)) (r : Result) : Result :=
  { r with events := events ++ r.events }

/-- A periodic service from one wait on, for at most `rounds` waits. -/
def periodic (s : Service) (interval : Duration) :
    (rounds : Nat) → (calls : Nat) → Nat → Signal → Result
  | 0, calls, _, signal => ⟨⟨.endless, [], signal⟩, calls⟩
  | rounds + 1, calls, now, signal =>
    Result.after [(now, .waiting)] <|
      match signal.wait now (some (now + interval.pauseMillis)) with
      | .never => ⟨⟨.endless, [], signal⟩, calls⟩
      | .stopped t => ⟨⟨.returned t, [(t, .stopped)], signal⟩, calls⟩
      | .due t =>
        let c := s.work.call calls t signal
        match c.ending with
        | .returned done =>
          (periodic s interval rounds (calls + 1) done c.signal).after c.events
        | _ => ⟨c, calls + 1⟩

/-- One run of a service of which `calls` calls were made before. -/
def run (s : Service) (calls now : Nat) (signal : Signal) : Result :=
  match s.interval with
  | none => ⟨s.work.call calls now signal, calls + 1⟩
  | some interval => periodic s interval (signal.patience now) calls now signal

def Event.entries (s : Service) : Event → List Log.Entry
  | .waiting =>
    match s.interval with
    | some d => [Log.debug "Service waiting" [("service", s.name), ("wait", d.text)]]
    | none => []
  | .noted entry => [entry]
  | .stopped => [Log.info "Stopped service" [("service", s.name)]]
  | _ => []

end ChannelAgent.Service
