import ChannelAgent.Duration
import ChannelAgent.Identity
import ChannelAgent.Settings.LogLevel
import ChannelAgent.Text.Utf8

set_option autoImplicit false

namespace ChannelAgent

structure ChannelSettings where
  /-- The endpoint, or nothing for the default one. -/
  endpoint : String := ""
  channel : String := ""
  deriving DecidableEq, Repr, Inhabited

structure Configuration where
  logLevel : LogLevel := .unspecified
  /-- Properties that stand in for those of the instance. -/
  cloudProperties : Option CloudProperties := none
  fastSeconds : UInt64 := 0
  slowSeconds : UInt64 := 0
  communication : Option ChannelSettings := none
  deriving DecidableEq, Repr, Inhabited

namespace ChannelSettings

open Json in
def record : Record ChannelSettings ChannelSettings where
  fields := [
    (Field.storing "endpoint" .string fun s c => { c with endpoint := s }).orLacking,
    (Field.storing "channel" .string fun s c => { c with channel := s }).orLacking]
  initial := {}
  finish := some
  closed := true

open Json in
def write (c : ChannelSettings) : List Char :=
  writeObject [("endpoint", quoteString c.endpoint), ("channel", quoteString c.channel)]

end ChannelSettings

namespace Configuration

open Json in
def record : Record Configuration Configuration where
  fields := [
    (Field.storing "logLevel" LogLevel.decoder fun l c => { c with logLevel := l }).orLacking,
    (Field.storing "cloudProperties" (Decoder.optional CloudProperties.decoder)
      fun p c => { c with cloudProperties := p }).orLacking,
    (Field.storing "fastServiceLoopSeconds" .word fun n c => { c with fastSeconds := n }).orLacking,
    (Field.storing "slowServiceLoopSeconds" .word fun n c => { c with slowSeconds := n }).orLacking,
    (Field.storing "communication" (Decoder.optional ChannelSettings.record.decoder)
      fun s c => { c with communication := s }).orLacking]
  initial := {}
  finish := some
  closed := true

def decoder : Json.Decoder Configuration := record.decoder

open Json in
def writeOptional {α : Type} (write : α → List Char) : Option α → List Char
  | some x => write x
  | none => ['n', 'u', 'l', 'l']

open Json in
def write (c : Configuration) : String :=
  String.ofList (writeObject [("logLevel", quoteString c.logLevel.name),
    ("cloudProperties", writeOptional CloudProperties.write c.cloudProperties),
    ("fastServiceLoopSeconds", writeNat c.fastSeconds.toNat),
    ("slowServiceLoopSeconds", writeNat c.slowSeconds.toNat),
    ("communication", writeOptional ChannelSettings.write c.communication)])

/-- Fills in the intervals that are not set: five and thirty seconds. -/
def applyDefaults (c : Configuration) : Configuration :=
  { c with
    fastSeconds := if c.fastSeconds = 0 then 5 else c.fastSeconds
    slowSeconds := if c.slowSeconds = 0 then 30 else c.slowSeconds }

def fastInterval (c : Configuration) : Duration := .ofSeconds c.fastSeconds

def slowInterval (c : Configuration) : Duration := .ofSeconds c.slowSeconds

def channel? (c : Configuration) : Option ChannelSettings :=
  c.communication.filter fun s => !s.channel.isEmpty

def defaultPath (os : String) : String :=
  if os = "windows" then
    "C:\\Program Files\\Google\\google-cloud-example-agent\\conf\\configuration.json"
  else "/etc/google-cloud-example-agent/configuration.json"

end Configuration

inductive ConfigurationFault
  /-- The file cannot be read. -/
  | unreadable (path cause : String)
  | empty (path : String)
  | malformed (path : String) (fault : Json.Fault)
  deriving DecidableEq, Repr

namespace ConfigurationFault

/-- The text of a fault, given the wording of faults in JSON. -/
def text (describe : Json.Fault → String) : ConfigurationFault → String
  | unreadable path cause => "Could not read configuration file " ++ path ++ ": " ++ cause
  | empty path => "Configuration file " ++ path ++ " is empty"
  | malformed path fault =>
    "Configuration JSON at '" ++ path ++ "' has error: " ++ describe fault ++
      ". Please fix the JSON and restart the agent"

def usageCode : ConfigurationFault → Int
  | unreadable _ _ | empty _ => 1
  | malformed _ _ => 2

end ConfigurationFault

namespace Configuration

def parse (path : String) (content : List UInt8) : Except ConfigurationFault Configuration :=
  if content.isEmpty then .error (.empty path)
  else
    match decoder.parseBytes content with
    | .ok c => .ok c
    | .error e => .error (.malformed path e)

/-- The state of a configuration file: its content, or why it cannot be read. -/
abbrev File := Except String (List UInt8)

def read (path : String) : File → Except ConfigurationFault Configuration
  | .error cause => .error (.unreadable path cause)
  | .ok content => parse path content

/-- The log entries that come with reading a file. -/
def readEntries (path : String) : File → List Log.Entry
  | .error cause =>
    [Log.error "Could not read from configuration file" [("file", path), ("error", cause)]]
  | .ok content =>
    match parse path content with
    | .error (.malformed _ _) =>
      [Log.error "Invalid content in the configuration file"
        [("file", path), ("content", Utf8.lossy content)]]
    | .error _ => [Log.error "Configuration file is empty" [("file", path)]]
    | .ok _ => []

end Configuration

end ChannelAgent
