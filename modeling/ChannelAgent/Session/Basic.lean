import ChannelAgent.Backoff
import ChannelAgent.Clock
import ChannelAgent.Identity
import ChannelAgent.Message
import ChannelAgent.Wire.Transport

set_option autoImplicit false

namespace ChannelAgent.Session

/-- A failure that the session records. The latest one is the result of the run. -/
inductive Failure
  | connect (cause : TransportError)
  | receive (cause : TransportError)
  | missingLabels
  | missingOperationId
  | sendStatus (cause : TransportError)
  deriving DecidableEq, Repr

namespace Failure

/-- The failure of the transport behind a failure. -/
def cause? : Failure → Option TransportError
  | .connect e | .receive e | .sendStatus e => some e
  | .missingLabels | .missingOperationId => none

/-- The text of a failure, given the wording of faults in JSON. -/
def text (describe : Json.Fault → String) : Failure → String
  | .connect e => "failed to establish connection to ACS: " ++ e.text describe
  | .receive e => "error receiving message from ACS: " ++ e.text describe
  | .missingLabels => "no labels in message received from ACS"
  | .missingOperationId => "no operation_id label in message"
  | .sendStatus e => "error sending status message via ACS: " ++ e.text describe

end Failure

/-- What the session asks for, with all it needs to go on from the answer. -/
inductive Stage
  | connecting
  | listening
  | handling (operationId : String) (request : Option Body)
  | acknowledging (operationId : String) (status : Message)
  /-- A pause, after which it listens again or, without a connection, connects. -/
  | pausing (delay : Duration)
  | finished
  deriving DecidableEq

/-- What a session takes the delays of its retries from. -/
class RetryPolicy (β : Type) where
  /-- The delay before the next retry, and the policy after it. -/
  next : β → Duration × β
  /-- Returns to the first delay. -/
  reset : β → β

instance : RetryPolicy Backoff := ⟨Backoff.next, Backoff.reset⟩

@[simp] theorem RetryPolicy.next_backoff (b : Backoff) : RetryPolicy.next b = b.next := rfl

@[simp] theorem RetryPolicy.reset_backoff (b : Backoff) : RetryPolicy.reset b = b.reset := rfl

/-- A session in a run. Connections are numbered as they are opened. -/
structure State (β : Type) where
  stage : Stage
  connection : Option Nat
  backoff : β
  lastFailure : Option Failure
  deriving DecidableEq

/-- What happens in a session: the calls that it makes, what they come to, and what it does then. -/
inductive Event
  /-- A connect attempt begins while this many connections are open. -/
  | connecting (live : Nat)
  | connected (connection : Nat)
  | connectFailed (cause : TransportError)
  /-- The backoff returns to its first interval. -/
  | reset
  | pausing (delay : Duration)
  | receiving (connection : Nat)
  | received (message : Message)
  | receiveFailed (cause : TransportError)
  /-- A handler call begins, with the stop signal fired or not. -/
  | handling (request : Option Body) (properties : CloudProperties) (stopping : Bool)
  | handled (operationId : String) (result : Except String (Option Body))
  | sending (connection : Nat) (message : Message)
  | sendFailed (operationId : String) (cause : TransportError)
  | dropped (connection : Nat)
  /-- The stop signal fires while the session runs. -/
  | stopSignal
  | finished

namespace State

variable {β : Type}

def start (backoff : β) : State β :=
  { stage := .connecting, connection := none, backoff, lastFailure := none }

/-- Whether a session that sees the stop signal now goes no further. -/
def heedsStop (s : State β) : Bool := s.stage = .connecting || s.stage = .listening

/-- The state at the end of the run, when an open connection is dropped. -/
def finish (s : State β) : State β × List Event :=
  ({ s with stage := .finished, connection := none },
    .finished :: (s.connection.map Event.dropped).toList)

/-- The status message for the outcome of a handler call. -/
def acknowledgement (operationId : String) : Except String (Option Body) → Message
  | .ok response => .status operationId .succeeded response
  | .error _ => .status operationId .failed none

def onHandled (s : State β) (operationId : String) (result : Except String (Option Body)) :
    State β :=
  { s with stage := .acknowledging operationId (acknowledgement operationId result) }

def onSent (s : State β) : State β := { s with stage := .listening }

def onSendFailed (s : State β) (cause : TransportError) : State β :=
  { s with stage := .listening, lastFailure := some (.sendStatus cause) }

def onRested (s : State β) : State β :=
  { s with stage := if s.connection.isSome then .listening else .connecting }

/-- The result of the run: its latest failure, if it had one. -/
def result (s : State β) : Except Failure Unit :=
  match s.lastFailure with
  | some f => .error f
  | none => .ok ()

variable [RetryPolicy β]

-- What a call came to is not among the events of these: they show what the session does about it.

def pause (s : State β) : State β × List Event :=
  let (delay, backoff) := RetryPolicy.next s.backoff
  ({ s with stage := .pausing delay, backoff := backoff }, [.pausing delay])

/-- Drops the connection and pauses. -/
def reconnect (s : State β) : State β × List Event :=
  let (paused, events) := { s with connection := none }.pause
  (paused, (s.connection.map Event.dropped).toList ++ events)

def onConnected (s : State β) (connection : Nat) : State β × List Event :=
  ({ s with
    stage := .listening, connection := some connection, backoff := RetryPolicy.reset s.backoff },
    [.reset])

def onConnectFailed (s : State β) (cause : TransportError) : State β × List Event :=
  { s with lastFailure := some (.connect cause) }.pause

def onReceived (s : State β) (m : Message) : State β × List Event :=
  if !m.hasLabels then { s with lastFailure := some .missingLabels }.reconnect
  else
    match m.operationId? with
    | none => { s with lastFailure := some .missingOperationId }.pause
    | some id =>
      ({ s with stage := .handling id m.body, backoff := RetryPolicy.reset s.backoff }, [.reset])

def onReceiveFailed (s : State β) (cause : TransportError) : State β × List Event :=
  { s with lastFailure := some (.receive cause) }.reconnect

end State

/-- Puts what a call came to in front of what the session does about it. -/
def heard {σ : Type} (outcome : Event) (next : σ × List Event) : σ × List Event :=
  (next.1, outcome :: next.2)

@[simp] theorem fst_heard {σ : Type} (outcome : Event) (next : σ × List Event) :
    (heard outcome next).1 = next.1 := rfl

@[simp] theorem snd_heard {σ : Type} (outcome : Event) (next : σ × List Event) :
    (heard outcome next).2 = outcome :: next.2 := rfl

end ChannelAgent.Session
