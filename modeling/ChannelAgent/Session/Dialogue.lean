import ChannelAgent.Session.Journal
import ChannelAgent.Wire.Connection

set_option autoImplicit false

namespace ChannelAgent.Session

structure Dialogue where
  state : State Backoff
  connection : Wire.Connection
  /-- The pieces that the other side has yet to send. -/
  coming : List (List UInt8)
  /-- Whether the other side goes away after the last piece. -/
  leaves : Bool
  /-- The properties that every handler call is given. -/
  properties : CloudProperties

/-- Something worth a line in the log: an event, or an entry of the connection itself. -/
inductive Note
  | event (e : Event)
  | entry (e : Log.Entry)

namespace Dialogue

/-- A session on a connection that was just opened. -/
def start (connection : Wire.Connection) (coming : List (List UInt8)) (leaves : Bool)
    (properties : CloudProperties) : Dialogue × List Note :=
  let (state, events) := heard (.connected 1) ((State.start .standard).onConnected 1)
  ({ state, connection, coming, leaves, properties },
    (Event.connecting 0 :: events).map .event)

def goOn (d : Dialogue) (next : State Backoff × List Event) : Dialogue × List Note :=
  ({ d with state := next.1 }, next.2.map .event)

def after (notes : List Note) (next : Dialogue × List Note) : Dialogue × List Note :=
  (next.1, notes ++ next.2)

/-- A receive. When nothing can be decided, the other side sends its next piece or goes away. -/
def receive (d : Dialogue) : Dialogue × List Note :=
  match d.connection.receive with
  | (.item result, entries, connection) =>
    after (entries.map .entry) <|
      { d with connection := connection }.goOn
        (match result with
          | .ok m => heard (.received m) (d.state.onReceived m)
          | .error e => heard (.receiveFailed e) (d.state.onReceiveFailed e))
  | (_, entries, connection) =>
    after (entries.map .entry) <|
      match d.coming with
      | piece :: rest => ({ d with connection := connection.feed piece, coming := rest }, [])
      | [] =>
        if d.leaves then
          ({ d with connection := connection.hangUp, leaves := false }, [])
        else { d with connection := connection }.goOn d.state.finish

def isWaiting (d : Dialogue) : Bool := d.state.stage = .listening

def step (d : Dialogue) : Dialogue × List Note :=
  match d.state.stage with
  | .connecting | .pausing _ => d.goOn d.state.finish
  | .listening => d.receive
  | .handling id request =>
    after [.event (.handling request d.properties false)]
      (d.goOn (d.state.onHandled id (.ok request), [.handled id (.ok request)]))
  | .acknowledging id status =>
    after [.event (.sending 1 status)] <|
      match d.connection.send status with
      | .ok connection => { d with connection := connection }.goOn (d.state.onSent, [])
      | .error e => d.goOn (d.state.onSendFailed e, [.sendFailed id e])
  | .finished => (d, [])

/-- A bound on the steps: each byte is read once, and each line costs three steps. -/
def bound (d : Dialogue) : Nat :=
  4 * (d.connection.inlet.remaining + d.coming.flatten.length + 2) + 2 * d.coming.length + 4

/-- At most `n` steps. A receive that goes on waiting is not noted again. -/
def steps : (n : Nat) → (waited : Bool) → Dialogue → Dialogue × List Note
  | 0, _, d => (d, [])
  | n + 1, waited, d =>
    if d.state.stage = .finished then (d, [])
    else
      let noted : List Note :=
        if d.isWaiting && !waited then [.event (.receiving 1)] else []
      let (next, notes) := d.step
      let waits := d.isWaiting && next.isWaiting
      let (last, more) := steps n waits next
      (last, noted ++ notes ++ more)

def run (d : Dialogue) : Dialogue × List Note := d.steps d.bound false

end Dialogue

end ChannelAgent.Session
