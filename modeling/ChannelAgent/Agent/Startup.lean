import ChannelAgent.Agent.Roster
import ChannelAgent.Log.Setup

set_option autoImplicit false

namespace ChannelAgent.Agent

open Usage (Desk Ledger)

/-- Reads a configuration and fills in its defaults. -/
def loadConfiguration (describe : Json.Fault → String) (path : String) (file : Configuration.File)
    (i : Integration) (cloud : CloudProperties) (d : Desk) :
    Except ConfigurationFault Configuration × Ledger × Desk :=
  let reading := Ledger.ofEntries d.now
    (Log.info "Reading configuration" [("path", path)] :: Configuration.readEntries path file)
  match Configuration.read path file with
  | .ok c =>
    (.ok c.applyDefaults,
      reading ++ .ofEntries d.now [Log.info "Configuration read successfully"], d)
  | .error f =>
    let d := { d with logger := d.logger.setProperties i true cloud }
    let (reported, d) := d.logCode .error f.usageCode
    (.error f,
      reading ++
        .ofEntries d.now
          [Log.error "Could not read configuration" [("error", f.text describe)]] ++
        reported, d)

/-- The properties that the daemon works with: the configured ones if they name a project. -/
def effectiveProperties (c : Configuration) (cloud : CloudProperties) : CloudProperties :=
  (c.cloudProperties.filter fun p => !p.projectId.isEmpty).getD cloud

inductive StartFault
  | configuration (f : ConfigurationFault)
  | daemon (f : DaemonFault)
  deriving DecidableEq, Repr

/-- What comes of the command that starts the daemon. -/
structure Outcome where
  result : Except StartFault Unit
  /-- The instant at which it returns. -/
  finished : Nat
  /-- What is left behind up to the change of the log level. -/
  loading : Ledger
  /-- What is left behind from then on. -/
  running : Ledger
  /-- The log afterwards. -/
  log : Log.Setup

def Outcome.ledger (o : Outcome) : Ledger := o.loading ++ o.running

/-- Loads the configuration and runs the daemon until its shutdown. -/
def startDaemon (x : Surroundings) (path : String) (file : Configuration.File) (i : Integration)
    (cloud : CloudProperties) (shutdown : Nat) (log : Log.Setup) (d : Desk) : Outcome :=
  match loadConfiguration x.describe path file i cloud d with
  | (.error f, loading, d) => ⟨.error (.configuration f), d.now, loading, {}, log⟩
  | (.ok c, loading, d) =>
    let loading := loading ++ .ofEntries d.now c.logLevel.entries
    let (log, changed) := log.setLevel c.logLevel.severity
    let changed := Ledger.ofEntries d.now [changed]
    let cloud := effectiveProperties c cloud
    let setting : Daemon.Setting :=
      { integration := i, cloud, logger := d.logger, delivery := d.delivery
        dailyStarted := false, grace := Daemon.standardGrace, shutdown }
    match Daemon.run setting (registry x c cloud) 0 with
    | .ok r => ⟨.ok (), r.finished, loading, changed ++ r.ledger, log⟩
    | .error f => ⟨.error (.daemon f), d.now, loading, changed, log⟩

end ChannelAgent.Agent
