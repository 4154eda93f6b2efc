import ChannelAgent.Log.Filter

set_option autoImplicit false

namespace ChannelAgent.Log

/-- A log file: its path, and why it cannot be opened, if that is so. -/
structure Target where
  path : String
  obstacle : Option String := none
  deriving DecidableEq, Repr

/-- The complaint about a file that cannot be opened. -/
def Target.complaint (t : Target) : Option String :=
  t.obstacle.map fun cause =>
    "Could not open log file " ++ t.path ++ ": " ++ cause ++ ", logging to stdout"

/-- The log of a process after it was set up. -/
structure Setup where
  filter : Filter
  /-- Whether the filter came from the environment. -/
  fixed : Bool
  /-- The file that entries go to; without one, they are printed. -/
  file : Option String
  deriving DecidableEq, Repr

namespace Setup

/-- The part of the program that writes the entries about changes of the level. -/
def part : String := "workload_agent_core::logging"

/-- The message of a second attempt to set up a log. -/
def alreadyDone : String :=
  "Logging already initialized: a global default trace dispatcher has already been set"

/-- Sets up the log. A description that is no filter counts as missing. -/
def start (description : Option String) (level : Severity) (target : Option Target) : Setup :=
  let described := description.bind Filter.parse?
  { filter := described.getD (.ofSeverity level)
    fixed := described.isSome
    file := (target.filter fun t => t.obstacle.isNone).map (·.path) }

def setLevel (s : Setup) (level : Severity) : Setup × Entry :=
  if s.fixed then
    (s, debug "RUST_LOG is set, keeping its filter" [("level", level.name)])
  else
    ({ s with filter := .ofSeverity level }, debug "Log level updated" [("level", level.name)])

def keeps (s : Setup) (part : String) (e : Entry) : Bool := s.filter.keeps part e.severity

end Setup

end ChannelAgent.Log
