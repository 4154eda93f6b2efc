set_option autoImplicit false

namespace ChannelAgent.Log

/-- The severities, the gravest first. -/
inductive Severity
  | error
  | warn
  | info
  | debug
  | trace
  deriving DecidableEq, Repr, Inhabited

namespace Severity

def name : Severity → String
  | .error => "ERROR"
  | .warn => "WARN"
  | .info => "INFO"
  | .debug => "DEBUG"
  | .trace => "TRACE"

def lowerName : Severity → String
  | .error => "error"
  | .warn => "warn"
  | .info => "info"
  | .debug => "debug"
  | .trace => "trace"

/-- How much a severity lets through: one for errors alone, five for everything. -/
def verbosity : Severity → Nat
  | .error => 1
  | .warn => 2
  | .info => 3
  | .debug => 4
  | .trace => 5

/-- Whether an entry of severity `s` passes a threshold. -/
def passes (s threshold : Severity) : Bool := s.verbosity ≤ threshold.verbosity

def ofName? (name : String) : Option Severity :=
  [error, warn, info, debug, trace].find? fun s => s.name = name

/-- The severity that a command line asks for. Traces cannot be asked for. -/
def ofOption? (text : String) : Option Severity :=
  [debug, info, warn, error].find? fun s => s.lowerName = text

end Severity

structure Entry where
  severity : Severity
  message : String
  fields : List (String × String) := []
  deriving DecidableEq, Repr

def error (message : String) (fields : List (String × String) := []) : Entry :=
  ⟨.error, message, fields⟩

def warn (message : String) (fields : List (String × String) := []) : Entry :=
  ⟨.warn, message, fields⟩

def info (message : String) (fields : List (String × String) := []) : Entry :=
  ⟨.info, message, fields⟩

def debug (message : String) (fields : List (String × String) := []) : Entry :=
  ⟨.debug, message, fields⟩

end ChannelAgent.Log
