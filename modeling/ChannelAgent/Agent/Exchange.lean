import ChannelAgent.Agent.Roster
import ChannelAgent.Session.Dialogue

set_option autoImplicit false

namespace ChannelAgent.Agent

/-- The bytes that the channel service writes to a broker that sends pieces and perhaps goes away,
and its log entries. -/
def exchange (x : Surroundings) (settings : ChannelSettings) (cloud : CloudProperties)
    (pieces : List (List UInt8)) (leaves : Bool) : List UInt8 × List Log.Entry :=
  match Wire.Connection.opened ⟨[], false⟩ ⟨[], false⟩ settings.channel true with
  | .error _ => ([], [])
  | .ok connection =>
    let (first, opening) := Session.Dialogue.start connection pieces leaves cloud
    let (last, notes) := first.run
    let entries (n : Session.Note) : List Log.Entry :=
      match n with
      | .event e => eventEntries x settings e
      | .entry e => [e]
    (last.connection.outlet.written,
      startedEntry settings.channel :: (opening ++ notes).flatMap entries ++
        [stoppedEntry x settings.channel last.state])

end ChannelAgent.Agent
