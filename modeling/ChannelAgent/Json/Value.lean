import ChannelAgent.Decimal.Binary64

set_option autoImplicit false

namespace ChannelAgent.Json

inductive Fault
  /-- The text ends too early. -/
  | truncated
  /-- The text is no JSON, or leaves the limits on nesting and numbers. -/
  | malformed
  /-- The text is sound so far but does not fit what is asked for. -/
  | mismatched
  deriving DecidableEq, Repr

def Fault.category : Fault → String
  | .truncated => "eof"
  | .malformed => "syntax"
  | .mismatched => "data"

inductive Number
  /-- An integer literal below `2 ^ 64` without a sign. -/
  | natural (n : UInt64)
  /-- The integer literal `-n`, at least `-2 ^ 63` and not zero. -/
  | negative (n : Nat)
  /-- Every other literal. -/
  | real (below : Bool) (magnitude : Binary64)
  deriving DecidableEq, Repr

inductive Value
  | null
  | bool (b : Bool)
  | number (n : Number)
  | string (s : String)
  | list (items : List Value)
  | object (members : List (String × Value))
  deriving Repr

end ChannelAgent.Json
