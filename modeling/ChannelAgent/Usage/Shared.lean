import ChannelAgent.Usage.Desk

set_option autoImplicit false

namespace ChannelAgent.Usage

/-- What happens to a shared logger. A stop signal is known by a number. -/
inductive Use
  | setAgent (agent : AgentProperties)
  | setCloud (cloud : CloudProperties)
  | setProperties (integration : Integration) (enabled : Bool) (cloud : CloudProperties)
  | setPlatform (platform : Platform)
  | log (status : Status) (value : String)
  | logQuietly (status : Status) (value : String)
  /-- A call for the daily task, which is to run until the signal fires. -/
  | daily (signal : Nat)
  | fire (signal : Nat)
  /-- From now on the backend takes reports like this. -/
  | deliver (delivery : Delivery)
  /-- The user gives way to the daily task and goes on so much later. -/
  | pass (ms : Nat)

inductive Answer
  | nothing
  | logged (result : Except Fault Unit)
  /-- Whether the call has started the daily task. -/
  | daily (started : Bool)

/-- A logger and the stop signals of its users. -/
structure Shared where
  desk : Desk
  /-- The signal of the daily task, once it is started. -/
  own : Option Nat := none
  fired : List Nat := []

namespace Shared

def new (exclusions : List String) : Shared := { desk := { logger := .new exclusions } }

def set (s : Shared) (f : Logger → Logger) : Answer × Ledger × Shared :=
  (.nothing, {}, { s with desk := { s.desk with logger := f s.desk.logger } })

/-- Calls for the daily task. Only the signal of the call that starts it matters to the task. -/
def startDaily (s : Shared) (signal : Nat) : Answer × Ledger × Shared :=
  let (started, ledger, desk) := s.desk.startDaily
  (.daily started, ledger,
    if started then
      { s with
        desk := { desk with dailyStopped := decide (signal ∈ s.fired) }
        own := some signal }
    else s)

/-- What a user hears, what is left behind, and the logger after it. -/
def use (s : Shared) : Use → Answer × Ledger × Shared
  | .setAgent agent => s.set (·.setAgent agent)
  | .setCloud cloud => s.set (·.setCloud cloud)
  | .setProperties integration enabled cloud => s.set (·.setProperties integration enabled cloud)
  | .setPlatform platform => s.set (·.setPlatform platform)
  | .log status value =>
    let (result, ledger, desk) := s.desk.log status value
    (.logged result, ledger, { s with desk })
  | .logQuietly status value =>
    let (ledger, desk) := s.desk.logQuietly status value
    (.nothing, ledger, { s with desk })
  | .daily signal => s.startDaily signal
  | .fire signal =>
    (.nothing, {},
      { s with
        desk := { s.desk with dailyStopped := s.desk.dailyStopped || s.own == some signal }
        fired := signal :: s.fired })
  | .deliver delivery => (.nothing, {}, { s with desk := { s.desk with delivery } })
  | .pass ms =>
    let (ledger, desk) := s.desk.advance ms
    (.nothing, ledger, { s with desk })

end Shared

end ChannelAgent.Usage
