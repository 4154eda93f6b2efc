import ChannelAgent.Agent.CommandLine
import ChannelAgent.Agent.Startup
import ChannelAgent.Log.Path
import ChannelAgent.Metadata.Fetch
import ChannelAgent.Usage.Delivery

set_option autoImplicit false

namespace ChannelAgent.Agent

def identity : Integration :=
  { integrationName := "example", agentName := "google-cloud-example-agent"
    agentBinaryName := "google_cloud_example_agent", agentLongName := "Google Cloud Example Agent"
    agentVersion := "0.1.0" }

structure World where
  os : String
  /-- The directory below which programs keep their data on Windows. -/
  programData : Option String := none
  /-- The description of a log filter. -/
  filter : Option String := none
  /-- Why a log file cannot be opened, if that is so. -/
  obstacle : (path : String) → Option String
  file : (path : String) → Configuration.File
  network : Web.Network
  surroundings : Surroundings
  /-- The instant at which the daemon is told to shut down. -/
  shutdown : Nat

structure Performance where
  exitCode : Nat
  out : String := ""
  /-- The lines written to the standard error. -/
  complaints : List String := []
  /-- The entries that the log keeps, with their instants. -/
  kept : List (Nat × Log.Entry) := []
  /-- The file that they go to; without one, they are printed. -/
  logFile : Option String := none
  /-- Whether the metadata server was asked. -/
  asked : Bool := false
  /-- The reports that were attempted. -/
  reports : List (Nat × Usage.Request) := []

def logPath (w : World) (c : CommandLine) : String :=
  let usual (command : String) : String :=
    Log.Path.ofCommand identity.agentName command w.os "" w.programData
  match c.command with
  | .startDaemon _ => usual ""
  | command => c.logFile.getD (usual command.subcommand.name)

/-- The level that the log starts with. The daemon's comes from its configuration later. -/
def startLevel (c : CommandLine) : Log.Severity :=
  match c.command with
  | .startDaemon _ => .info
  | _ => (Log.Severity.ofOption? c.logLevel).getD .info

def levelEntries (c : CommandLine) : List Log.Entry :=
  match c.command, Log.Severity.ofOption? c.logLevel with
  | .startDaemon _, _ | _, some _ => []
  | _, none => [Log.warn "Unsupported log level, defaulting to info" [("level", c.logLevel)]]

/-- The properties of the instance, or none of them, and the entries of asking for them. -/
def askMetadata (w : World) : CloudProperties × List Log.Entry :=
  match Metadata.fetch Metadata.server w.network with
  | .ok p => (p, [Metadata.fetchEntry Metadata.server])
  | .error f =>
    ({}, [Metadata.fetchEntry Metadata.server,
      Log.warn "Could not fetch cloud properties from the metadata server"
        [("error", f.text w.surroundings.describe)]])

def failureLines (text : String) (cause : Option String) : List String :=
  ("Error: " ++ text) ::
    match cause with
    | some c => ["", "Caused by:", "    " ++ c]
    | none => []

/-- The cause of a fault in a configuration, if it lies behind it. -/
def causeOf (describe : Json.Fault → String) : ConfigurationFault → Option String
  | .unreadable _ cause => some cause
  | .empty _ => none
  | .malformed _ f => some (describe f)

def failedEntry (text : String) : Log.Entry := Log.error "Command failed" [("error", text)]

/-- The part of the program that entries are said to come from. -/
def part : String := "google_cloud_example_agent"

def keptBy (log : Log.Setup) (entries : List (Nat × Log.Entry)) : List (Nat × Log.Entry) :=
  entries.filter fun e => log.keeps part e.2

/-- Carries out a command line that is not for the version alone. -/
def perform (w : World) (c : CommandLine) : Performance :=
  let target : Log.Target := ⟨logPath w c, w.obstacle (logPath w c)⟩
  let log := Log.Setup.start w.filter (startLevel c) (some target)
  let opened := (log.file.map fun p => Log.debug "Writing logs to file" [("path", p)]).toList
  let (cloud, asking) := askMetadata w
  let before := keptBy log ((opened ++ levelEntries c ++ asking).map fun e => (0, e))
  let desk : Usage.Desk := { logger := .new [], delivery := .via w.network }
  let base : Performance :=
    { exitCode := 0, complaints := target.complaint.toList, kept := before, logFile := log.file
      asked := true }
  match c.command with
  | .version => base
  | .echo text =>
    let (out, ledger, _) := echo text identity cloud desk
    { base with out, kept := before ++ keptBy log ledger.entries, reports := ledger.reports }
  | .logUsage r =>
    let (result, ledger, _) := r.run identity.agentName identity.agentVersion cloud desk
    let done := { base with
      kept := before ++ keptBy log ledger.entries, reports := ledger.reports }
    match result with
    | .ok () => done
    | .error lack =>
      { done with
        exitCode := 1
        kept := done.kept ++ keptBy log [(0, failedEntry lack.text)]
        complaints := done.complaints ++ failureLines lack.text none }
  | .startDaemon config =>
    let path := config.getD (Configuration.defaultPath w.os)
    let o := startDaemon w.surroundings path (w.file path) identity cloud w.shutdown log desk
    let done := { base with
      kept := before ++ keptBy log o.loading.entries ++ keptBy o.log o.running.entries
      reports := o.ledger.reports }
    let failed (text : String) (cause : Option String) : Performance :=
      { done with
        exitCode := 1
        kept := done.kept ++ keptBy o.log [(o.finished, failedEntry text)]
        complaints := done.complaints ++ failureLines text cause }
    match o.result with
    | .ok () => done
    | .error (.configuration f) =>
      failed (f.text w.surroundings.describe) (causeOf w.surroundings.describe f)
    | .error (.daemon f) => failed f.text none

def run (w : World) (arguments : List String) : Performance :=
  match CommandLine.parse arguments with
  | .error r =>
    if r.isComplaint then { exitCode := r.exitCode, complaints := [r.text] }
    else { exitCode := r.exitCode, out := r.text ++ "\n" }
  | .ok c =>
    match c.command with
    | .version => { exitCode := 0, out := versionLine identity }
    | _ => perform w c

end ChannelAgent.Agent
