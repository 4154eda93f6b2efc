import ChannelAgent.Clock
import ChannelAgent.Duration
import ChannelAgent.Log.Entry
import ChannelAgent.Text.Quoted

set_option autoImplicit false

namespace ChannelAgent

namespace Service

inductive Event
  /-- A periodic service waits for its interval. -/
  | waiting
  /-- A call of the work begins; calls are counted from zero. -/
  | callStarted (n : Nat)
  /-- It returns by itself. -/
  | callEnded (n : Nat)
  /-- The stop signal cuts its sleep short. -/
  | interrupted (n : Nat)
  /-- It waited for the stop signal and saw it. -/
  | stopSeen (n : Nat)
  /-- It gives the stop signal. -/
  | stopGiven (n : Nat)
  /-- The work writes to the log. -/
  | noted (entry : Log.Entry)
  /-- A periodic service stops. -/
  | stopped
  deriving DecidableEq, Repr

inductive Ending
  | returned (at_ : Nat)
  | panicked (at_ : Nat) (message : String)
  /-- It goes on for ever, or for longer than anyone looks. -/
  | endless
  deriving DecidableEq, Repr

def Ending.instant? : Ending → Option Nat
  | .returned t | .panicked t _ => some t
  | .endless => none

/-- What a call of the work comes to. -/
structure Course where
  ending : Ending
  events : List (Nat × Event)
  signal : Signal
  deriving DecidableEq, Repr

def Course.after (events : List (Nat × Event)) (c : Course) : Course :=
  { c with events := events ++ c.events }

/-- The work of a service: the course of its `n`th call from an instant on, under a stop signal. -/
structure Work where
  call : (n : Nat) → Nat → Signal → Course
  /-- A call does not end before it begins, and nothing happens in it after its end. -/
  spans : ∀ n now signal,
    Spans now (call n now signal).events (call n now signal).ending.instant?
  /-- A call can give the stop signal, but neither take it back nor put it off. -/
  giving : ∀ n now (signal : Signal), signal.Becomes now (call n now signal).signal

theorem Work.onward (w : Work) (n now : Nat) (signal : Signal) (t : Nat)
    (ends : (w.call n now signal).ending.instant? = some t) : now ≤ t :=
  (w.spans n now signal).onward t ends

end Service

/-- A service. -/
structure Service where
  name : String
  /-- The code under which its failures are reported. -/
  code : Int
  /-- The interval of a periodic service; a routine has none. -/
  interval : Option Duration
  /-- A run that returns sooner counts as a failure. -/
  minimum : Duration
  /-- The work; its calls are counted from zero over all runs. -/
  work : Service.Work

namespace Service

/-- The kind of a service as it appears in the log. -/
def kindText (s : Service) : String :=
  match s.interval with
  | some d => "Periodic \x7b interval: " ++ d.text ++ ", .. \x7d"
  | none => "Routine"

def text (s : Service) : String :=
  "Service \x7b name: " ++ Quoted.quote s.name ++ ", error_code: " ++ toString s.code ++
    ", expected_min_duration: " ++ s.minimum.text ++ ", kind: " ++ s.kindText ++ " \x7d"

end Service

end ChannelAgent
