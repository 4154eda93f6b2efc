import ChannelAgent.Message
import ChannelAgent.Json.Variant

set_option autoImplicit false

namespace ChannelAgent

inductive Frame
  /-- Binds the connection to a channel. -/
  | opening (channel : String) (regional : Bool)
  | message (m : Message)
  /-- An error that the broker reports. -/
  | error (text : String)
  deriving DecidableEq

namespace Frame

structure OpeningParts where
  channel : Option String
  regional : Option Bool

open Json in
def openingRecord : Record OpeningParts Frame where
  fields := [
    .storing "channel" .string fun s p => { p with channel := some s },
    .storing "regional" .bool fun b p => { p with regional := some b }]
  initial := ⟨none, none⟩
  finish p := do some (.opening (← p.channel) (← p.regional))

open Json in
def errorRecord : Record (Option String) Frame where
  fields := [.storing "message" .string fun s _ => some s]
  initial := none
  finish p := p.map .error

def variants : Json.Variants Frame := [
  ("open", openingRecord.decoder.ofValue?),
  ("message", fun v => (Message.decoder.ofValue? v).map .message),
  ("error", errorRecord.decoder.ofValue?)]

def decoder : Json.Decoder Frame := variants.decoder

def parse (text : String) : Except Json.Fault Frame := decoder.parseText text

open Json in
/-- The JSON text of a frame, its tag first. -/
def write : Frame → String
  | .opening channel regional =>
    String.ofList (writeObject [("type", quoteString "open"), ("channel", quoteString channel),
      ("regional", writeBool regional)])
  | .message m => String.ofList (writeObject (("type", quoteString "message") :: m.members))
  | .error text =>
    String.ofList (writeObject [("type", quoteString "error"), ("message", quoteString text)])

end Frame

end ChannelAgent
