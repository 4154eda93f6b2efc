set_option autoImplicit false

namespace ChannelAgent.Json

def hexDigit (n : Nat) : Char := Char.ofNat (if n < 10 then 48 + n else 87 + n)

def escapeChar (c : Char) : List Char :=
  if c = '"' then ['\\', '"']
  else if c = '\\' then ['\\', '\\']
  else if c = '\x08' then ['\\', 'b']
  else if c = '\t' then ['\\', 't']
  else if c = '\n' then ['\\', 'n']
  else if c = '\x0c' then ['\\', 'f']
  else if c = '\r' then ['\\', 'r']
  else if c.toNat < 0x20 then
    ['\\', 'u', '0', '0', hexDigit (c.toNat / 16), hexDigit (c.toNat % 16)]
  else [c]

def quoteString (s : String) : List Char := '"' :: s.toList.flatMap escapeChar ++ ['"']

def commaSeparated : List (List Char) → List Char
  | [] => []
  | [x] => x
  | x :: rest => x ++ ',' :: commaSeparated rest

/-- The text of an object with the given member texts, in their order. -/
def writeObject (members : List (String × List Char)) : List Char :=
  '\x7b' :: commaSeparated (members.map fun m => quoteString m.1 ++ ':' :: m.2) ++ ['\x7d']

def writeNat (n : Nat) : List Char := Nat.toDigits 10 n

def writeBool (b : Bool) : List Char := if b then ['t', 'r', 'u', 'e'] else ['f', 'a', 'l', 's', 'e']

end ChannelAgent.Json
