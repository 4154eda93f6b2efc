import ChannelAgent.Json.Decoder
import ChannelAgent.Log.Entry

set_option autoImplicit false

namespace ChannelAgent

inductive LogLevel
  | unspecified
  | debug
  | info
  | warning
  | error
  deriving DecidableEq, Repr, Inhabited

namespace LogLevel

def name : LogLevel → String
  | unspecified => "LOG_LEVEL_UNSPECIFIED"
  | debug => "DEBUG"
  | info => "INFO"
  | warning => "WARNING"
  | error => "ERROR"

def ofNumber (n : Int) : LogLevel :=
  if n = 1 then debug else if n = 2 then info else if n = 3 then warning
  else if n = 4 then error else unspecified

def ofName (name : String) : LogLevel :=
  if name = "DEBUG" then debug
  else if name = "INFO" then info
  else if name = "WARNING" then warning
  else if name = "ERROR" then error
  else unspecified

/-- The least grave severity that is still logged at this level. -/
def severity : LogLevel → Log.Severity
  | unspecified | info => .info
  | debug => .debug
  | warning => .warn
  | error => .error

/-- The entries that come with the choice of a level. -/
def entries : LogLevel → List Log.Entry
  | unspecified =>
    [Log.warn "Unsupported log level, defaulting to INFO" [("level", unspecified.name)]]
  | _ => []

/-- The level of a buffered value: a string, or an integer of 64 bits with a sign. -/
def ofValue? : Json.Value → Option LogLevel
  | .string s => some (ofName s)
  | .number (.natural n) =>
    if n.toNat < 9223372036854775808 then some (ofNumber n.toNat) else none
  | .number (.negative n) => some (ofNumber (-(n : Int)))
  | _ => none

def decoder : Json.Decoder LogLevel := Json.Decoder.any.refine ofValue?

end LogLevel

end ChannelAgent
