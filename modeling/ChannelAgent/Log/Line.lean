import ChannelAgent.Json.Printer
import ChannelAgent.Log.Entry

set_option autoImplicit false

namespace ChannelAgent.Log

/-- An entry for a reader, with the part of the program that writes it. -/
def Entry.line (e : Entry) (part : String) : String :=
  e.severity.name ++ " " ++ part ++ ": " ++ e.message ++
    String.join (e.fields.map fun f => " " ++ f.1 ++ "=" ++ f.2)

open Json in
def Entry.record (e : Entry) (part : String) (now : Nat) : String :=
  let fields := ("message", e.message) :: e.fields
  String.ofList (writeObject
    [("elapsed", writeNat now), ("level", quoteString e.severity.name),
      ("fields", writeObject (fields.map fun f => (f.1, quoteString f.2))),
      ("target", quoteString part)])

end ChannelAgent.Log
