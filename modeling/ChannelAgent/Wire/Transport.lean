import ChannelAgent.Json.Value
import ChannelAgent.Wire.Line

set_option autoImplicit false

namespace ChannelAgent

/-- A failure of a connection or of the attempt to open one. -/
inductive TransportError
  | io (text : String)
  | codec (fault : Wire.LineFault)
  /-- A line that is no frame. -/
  | json (fault : Json.Fault)
  /-- The other side closed the connection. -/
  | closed
  /-- An error frame. -/
  | remote (text : String)
  /-- No connection could be opened. -/
  | connect (text : String)
  deriving DecidableEq, Repr

namespace TransportError

/-- The text of an error, given the wording of faults in JSON. -/
def text (describe : Json.Fault → String) : TransportError → String
  | .io text => "I/O error: " ++ text
  | .codec fault => "Framing error: " ++ fault.text
  | .json fault => "Invalid frame: " ++ describe fault
  | .closed => "Connection closed by peer"
  | .remote text => "Remote error: " ++ text
  | .connect text => "Connection failed: " ++ text

end TransportError

/-- The endpoint to connect to when the given one overrides the default; an empty one does not. -/
def endpointOverride? (endpoint : String) : Option String :=
  if endpoint.isEmpty then none else some endpoint

end ChannelAgent
