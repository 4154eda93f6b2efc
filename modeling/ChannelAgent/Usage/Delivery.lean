import ChannelAgent.Usage.Report
import ChannelAgent.Web.Exchange

set_option autoImplicit false

namespace ChannelAgent.Usage

/-- The question that delivers a report, if it can be asked. Only the compute service is told who
asks. -/
def Request.question? (r : Request) : Option Web.Question :=
  match Web.Address.parse? r.url with
  | none => none
  | some address =>
    if Web.isHeaderValue r.userAgent && (r.project.all Web.isHeaderValue) then
      some
        { address, userAgent := some r.userAgent, project := r.project
          flavor := if computeUrl.isPrefixOf r.url then some "Google" else none }
    else none

def Request.deliver (r : Request) (network : Web.Network) : Except Web.Fault Unit :=
  match r.question? with
  | none => .error .unaskable
  | some q =>
    match network q with
    | some _ => .ok ()
    | none => .error (.unanswered q.address)

def Delivery.via (network : Web.Network) : Delivery := fun r =>
  match r.deliver network with
  | .ok () => none
  | .error f => some (.request f.text)

end ChannelAgent.Usage
