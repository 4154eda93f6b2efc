import ChannelAgent.Service.Supervision
import ChannelAgent.Usage.Desk

set_option autoImplicit false

namespace ChannelAgent.Supervision

def ledger (logger : Usage.Logger) (delivery : Usage.Delivery) (s : Service)
    (e : Nat × Event) : Usage.Ledger :=
  let noted := Usage.Ledger.ofEntries e.1 (e.2.entries s)
  if e.2.isFailure then
    noted ++ .ofOutcome e.1
      (Usage.Logger.quiet .error (logger.outcome delivery .error (toString s.code)))
  else noted

def Trace.ledger (logger : Usage.Logger) (delivery : Usage.Delivery) (s : Service)
    (t : Trace) : Usage.Ledger :=
  .joined (t.events.map (Supervision.ledger logger delivery s))

end ChannelAgent.Supervision
