import ChannelAgent.Text.Printable

set_option autoImplicit false

namespace ChannelAgent.Quoted

def escapeChar (c : Char) : List Char :=
  if c = '\x00' then ['\\', '0']
  else if c = '\t' then ['\\', 't']
  else if c = '\r' then ['\\', 'r']
  else if c = '\n' then ['\\', 'n']
  else if c = '"' then ['\\', '"']
  else if c = '\\' then ['\\', '\\']
  else if Printable.isPrintable c then [c]
  else ['\\', 'u', '\x7b'] ++ Nat.toDigits 16 c.toNat ++ ['\x7d']

def quote (s : String) : String := String.ofList ('"' :: s.toList.flatMap escapeChar ++ ['"'])

/-- The entries of a map in braces, names and texts quoted. -/
def entries (es : List (String × String)) : String :=
  "\x7b" ++ String.intercalate ", " (es.map fun e => quote e.1 ++ ": " ++ quote e.2) ++ "\x7d"

end ChannelAgent.Quoted
