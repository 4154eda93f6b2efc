import ChannelAgent.Log.Entry
import ChannelAgent.Session.Basic
import ChannelAgent.Text.Quoted

set_option autoImplicit false

namespace ChannelAgent.Session

def labelText (l : Labels) : String := Quoted.entries l.entries

def outcome : Except String (Option Body) → OperationState
  | .ok _ => .succeeded
  | .error _ => .failed

def responded : Except String (Option Body) → Bool
  | .ok (some _) => true
  | _ => false

def truthText (b : Bool) : String := if b then "true" else "false"

/-- The log entries of an event in a session on a channel. -/
def Event.entries (describe : Json.Fault → String) (endpoint channel : String) :
    Event → List Log.Entry
  | .connecting _ =>
    Log.info "Establishing connection with ACS" [("endpoint", endpoint), ("channel", channel)] ::
      match endpointOverride? endpoint with
      | some e => [Log.info "Using non-default endpoint" [("endpoint", e)]]
      | none => []
  | .connected _ => [Log.info "Connected to ACS" [("channel", channel)]]
  | .connectFailed e =>
    [Log.warn "Failed to establish connection to ACS. Will backoff and retry"
      [("error", e.text describe)]]
  | .reset => []
  | .pausing delay => [Log.info "Backing off" [("duration", delay.text)]]
  | .receiving _ =>
    [Log.debug "Listening for messages on ACS" [("endpoint", endpoint), ("channel", channel)]]
  | .received m =>
    if !m.hasLabels then
      [Log.warn "No labels in message from ACS. Will backoff and retry with a new connection"]
    else
      Log.debug "ACS message received" [("labels", labelText m.labels)] ::
        match m.operationId? with
        | none =>
          [Log.warn "No operation_id label in message. Will backoff and retry"
            [("labels", labelText m.labels)]]
        | some id => [Log.debug "Parsed operation_id from label" [("operation_id", id)]]
  | .receiveFailed e =>
    [Log.warn "Receiving from ACS failed. Will backoff and retry with a new connection"
      [("error", e.text describe)]]
  | .handling _ _ _ => []
  | .handled id result =>
    (match result with
      | .error text =>
        [Log.warn "Encountered error during ACS message handling"
          [("operation_id", id), ("error", "Handling failed: " ++ text)]]
      | .ok _ => []) ++
    [Log.debug "Message handling complete"
      [("operation_id", id), ("state", (outcome result).name),
        ("has_response", truthText (responded result))]]
  | .sending _ m => [Log.debug "Sending status message via ACS" [("labels", labelText m.labels)]]
  | .sendFailed id e =>
    [Log.warn "Encountered error sending status message"
      [("operation_id", id), ("error", (Failure.sendStatus e).text describe)]]
  | .dropped _ => []
  | .stopSignal => []
  | .finished => [Log.info "Context is done. Returning"]

end ChannelAgent.Session
