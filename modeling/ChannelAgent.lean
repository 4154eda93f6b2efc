import ChannelAgent.Agent.CommandLine
import ChannelAgent.Agent.Exchange
import ChannelAgent.Agent.OneTime
import ChannelAgent.Agent.Program
import ChannelAgent.Agent.Roster
import ChannelAgent.Agent.Startup
import ChannelAgent.Backoff
import ChannelAgent.Clock
import ChannelAgent.Daemon.Basic
import ChannelAgent.Decimal.Binary64
import ChannelAgent.Decimal.Shortest
import ChannelAgent.Duration
import ChannelAgent.Frame
import ChannelAgent.Identity
import ChannelAgent.Json.Decoder
import ChannelAgent.Json.Literal
import ChannelAgent.Json.Printer
import ChannelAgent.Json.Reader
import ChannelAgent.Json.Record
import ChannelAgent.Json.Token
import ChannelAgent.Json.Value
import ChannelAgent.Json.Variant
import ChannelAgent.Labels
import ChannelAgent.Log.Entry
import ChannelAgent.Log.Filter
import ChannelAgent.Log.Line
import ChannelAgent.Log.Path
import ChannelAgent.Log.Setup
import ChannelAgent.Main
import ChannelAgent.Message
import ChannelAgent.Metadata
import ChannelAgent.Metadata.Fetch
import ChannelAgent.Proofs.Session.Answers
import ChannelAgent.Proofs.Session.Connection
import ChannelAgent.Proofs.Session.Failure
import ChannelAgent.Proofs.Session.Stop
import ChannelAgent.Proofs.Session.Turn
import ChannelAgent.Proofs.Signal
import ChannelAgent.Proofs.Trace
import ChannelAgent.Service.Basic
import ChannelAgent.Service.Ledger
import ChannelAgent.Service.Run
import ChannelAgent.Service.Script
import ChannelAgent.Service.Supervision
import ChannelAgent.Session.Basic
import ChannelAgent.Session.Dialogue
import ChannelAgent.Session.Journal
import ChannelAgent.Session.Script
import ChannelAgent.Settings.Configuration
import ChannelAgent.Settings.LogLevel
import ChannelAgent.Text.Base64
import ChannelAgent.Text.Blank
import ChannelAgent.Text.Numeral
import ChannelAgent.Text.Printable
import ChannelAgent.Text.Quoted
import ChannelAgent.Text.Utf8
import ChannelAgent.Usage.Delivery
import ChannelAgent.Usage.Desk
import ChannelAgent.Usage.Logger
import ChannelAgent.Usage.Report
import ChannelAgent.Usage.Shared
import ChannelAgent.Usage.Status
import ChannelAgent.Web.Address
import ChannelAgent.Web.Exchange
import ChannelAgent.Wire.Connection
import ChannelAgent.Wire.Endpoint
import ChannelAgent.Wire.Line
import ChannelAgent.Wire.Transport
import ChannelAgent.Proofs.Backoff
import ChannelAgent.Proofs.Session.Delays
import ChannelAgent.Proofs.Frame
import ChannelAgent.Proofs.Text.Utf8
import ChannelAgent.Proofs.Wire.Lines
import ChannelAgent.Proofs.Wire.Verdict
import ChannelAgent.Proofs.Wire.Inlet
import ChannelAgent.Proofs.Wire.Stream
import ChannelAgent.Proofs.Json.Plain
import ChannelAgent.Proofs.Wire.Written
import ChannelAgent.Proofs.Wire.Dispatch
import ChannelAgent.Proofs.Session.Echo
import ChannelAgent.Proofs.Service.Rounds
import ChannelAgent.Proofs.Service.Supervision
import ChannelAgent.Proofs.Daemon.Lives
import ChannelAgent.Proofs.Daemon.Shutdown
import ChannelAgent.Proofs.Daemon.Reports
import ChannelAgent.Proofs.Wire.Recovery
import ChannelAgent.Proofs.Usage.History
import ChannelAgent.Proofs.Daemon.Lifecycle
import ChannelAgent.Proofs.Session.Rerun
import ChannelAgent.Proofs.Json.Extent
import ChannelAgent.Proofs.Json.Buffering
import ChannelAgent.Proofs.Json.Skipping
import ChannelAgent.Proofs.Json.Agreement
import ChannelAgent.Proofs.Json.Insertion
import ChannelAgent.Proofs.Json.Integers
import ChannelAgent.Proofs.Json.Records
import ChannelAgent.Proofs.Frame.Tagging
import ChannelAgent.Proofs.Settings.Decoding
import ChannelAgent.Proofs.Settings.RoundTrip
import ChannelAgent.Proofs.Settings.Schema
import ChannelAgent.Proofs.Agent.Startup
import ChannelAgent.Proofs.Backoff.Growth
import ChannelAgent.Proofs.Service.Schedule
import ChannelAgent.Proofs.Daemon.DailyTask
import ChannelAgent.Proofs.Daemon.Isolation
import ChannelAgent.Proofs.Usage.Timetable
import ChannelAgent.Proofs.Usage.Daily
import ChannelAgent.Proofs.Session.Translation
import ChannelAgent.Proofs.Agent.StatusReport
import ChannelAgent.Proofs.Session.Outline
import ChannelAgent.Proofs.Text.Canonical
import ChannelAgent.Proofs.Json.Conversion
import ChannelAgent.Proofs.Message.Verbatim
import ChannelAgent.Proofs.Json.Grammar
import ChannelAgent.Proofs.Json.Denotation
import ChannelAgent.Proofs.Frame.Presentation
import ChannelAgent.Proofs.Usage.UserAgent
import ChannelAgent.Proofs.Agent.RequiredValue
import ChannelAgent.Proofs.Daemon.Registry
import ChannelAgent.Proofs.Json.Raw
import ChannelAgent.Proofs.Json.Layout
import ChannelAgent.Proofs.Json.Places
import ChannelAgent.Proofs.Metadata.Document
import ChannelAgent.Proofs.Metadata.Normalisation
import ChannelAgent.Proofs.Session.Dialogue
