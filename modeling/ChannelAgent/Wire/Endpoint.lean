import ChannelAgent.Text.Numeral
import ChannelAgent.Wire.Transport

set_option autoImplicit false

namespace ChannelAgent

/-- The parts of a text before and after its last colon. -/
def splitAtLastColon? (cs : List Char) : Option (List Char × List Char) :=
  if ':' ∈ cs then
    let port := (cs.reverse.takeWhile (· ≠ ':')).reverse
    some (cs.take (cs.length - port.length - 1), port)
  else none

/-- What is wrong with the form of an address, if anything is. -/
def addressFault? (address : String) : Option String :=
  match splitAtLastColon? address.toList with
  | none => some "invalid socket address"
  | some (_, port) => if (Numeral.port? port).isSome then none else some "invalid port value"

def TransportError.unreachable (address cause : String) : TransportError :=
  .connect (address ++ ": " ++ cause)

end ChannelAgent
