import ChannelAgent.Log.Entry
import ChannelAgent.Metadata
import ChannelAgent.Web.Exchange

set_option autoImplicit false

namespace ChannelAgent.Metadata

inductive FetchFault
  | request (f : Web.Fault)
  | document (f : Json.Fault)
  deriving DecidableEq, Repr

/-- The text of a fault, given the wording of faults in JSON. -/
def FetchFault.text (describe : Json.Fault → String) : FetchFault → String
  | .request f => "Metadata request failed: " ++ f.text
  | .document f => "Invalid metadata response: " ++ describe f

/-- The base of the address of the metadata server. -/
def server : String := "http://metadata.google.internal"

def documentUrl (base : String) : String :=
  base ++ "/computeMetadata/v1/?recursive=true&alt=json"

def fetchEntry (base : String) : Log.Entry :=
  Log.debug "Fetching cloud properties from metadata server" [("url", documentUrl base)]

/-- The question for the document, if it can be asked. -/
def question? (base : String) : Option Web.Question :=
  (Web.Address.parse? (documentUrl base)).map fun address => { address, flavor := some "Google" }

def fetch (base : String) (network : Web.Network) : Except FetchFault CloudProperties :=
  match question? base with
  | none => .error (.request .unaskable)
  | some q =>
    match network q with
    | none => .error (.request (.unanswered q.address))
    | some a =>
      if Web.isFailure a.status then .error (.request (.refused a.status q.address))
      else
        match parse a.body with
        | .ok p => .ok p
        | .error f => .error (.document f)

end ChannelAgent.Metadata
