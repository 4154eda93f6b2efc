set_option autoImplicit false

namespace ChannelAgent.Numeral

/-- The number that digits denote, if all are digits and there is one. -/
def digits? (cs : List Char) : Option Nat :=
  if cs.isEmpty || !cs.all Char.isDigit then none
  else some (cs.foldl (fun n c => n * 10 + (c.toNat - 48)) 0)

def natural? : List Char → Option Nat
  | '+' :: cs => digits? cs
  | cs => digits? cs

def integer? : List Char → Option Int
  | '-' :: cs => (digits? cs).map fun n => -(n : Int)
  | cs => (natural? cs).map Int.ofNat

/-- A number of 32 bits with a sign. -/
def int32? (text : String) : Option Int :=
  (integer? text.toList).filter fun n => -2147483648 ≤ n && n ≤ 2147483647

def port? (cs : List Char) : Option Nat := (natural? cs).filter (· ≤ 65535)

end ChannelAgent.Numeral
