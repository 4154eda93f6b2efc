import ChannelAgent.Identity
import ChannelAgent.Service.Ledger

set_option autoImplicit false

namespace ChannelAgent

inductive DaemonFault
  | noServices
  | duplicateService (name : String)
  deriving DecidableEq, Repr

def DaemonFault.text : DaemonFault → String
  | .noServices => "No services registered"
  | .duplicateService name => "Duplicate service name: " ++ name

/-- Registered services, in the order in which they are started. -/
structure Registry where
  services : List Service
  distinct : (services.map (·.name)).Nodup

namespace Registry

def empty : Registry := ⟨[], by simp⟩

def names (r : Registry) : List String := r.services.map (·.name)

/-- Registers a service, unless one of its name is registered. -/
def register (r : Registry) (s : Service) : Except DaemonFault Registry :=
  if h : s.name ∈ r.services.map (·.name) then .error (.duplicateService s.name)
  else
    .ok ⟨r.services ++ [s], by
      simpa [List.nodup_append, r.distinct] using h⟩

end Registry

namespace Daemon

/-- How long services may take to stop, unless another period is set. -/
def standardGrace : Duration := .ofSeconds 3

structure Setting where
  integration : Integration
  cloud : CloudProperties
  /-- The usage logger before the daemon sets its properties. -/
  logger : Usage.Logger
  delivery : Usage.Delivery
  /-- Whether the daily report was started before, with a stop signal of its own that never
  fires. -/
  dailyStarted : Bool
  grace : Duration
  /-- The instant of the shutdown. At instant zero nothing has run yet. -/
  shutdown : Nat

abbrev Task := Service × Supervision.Trace

/-- The task of a service under a stop signal. -/
def superviseFrom (signal : Signal) (s : Service) : Task :=
  (s, Supervision.supervise s .standard 0 signal)

/-- The instant at which a service gives the stop signal, if that is before the given one. -/
def givenBefore (shutdown : Nat) (t : Task) : Option Nat :=
  t.2.signal.firesAt.filter (· < shutdown)

/-- The earlier of two instants that may be missing. -/
def earlier : Option Nat → Option Nat → Option Nat
  | some a, some b => some (min a b)
  | some a, none => some a
  | none, b => b

/-- The tasks when a service gives the stop signal in its first turn. Turns are taken in the order
of the services: those before it have begun, and those after it find the signal given. A task that
ends in its first turn knows nothing of the signal. -/
def firstTurns : (given : Bool) → List Task → List Task
  | _, [] => []
  | true, t :: ts => superviseFrom ⟨some 0⟩ t.1 :: firstTurns true ts
  | false, t :: ts =>
    if t.2.signal.firesAt = some 0 then t :: firstTurns true ts
    else if t.2.ended = some 0 then t :: firstTurns false ts
    else (t.1, Supervision.superviseStarted t.1 .standard 0 ⟨some 0⟩) :: firstTurns false ts

/-- The tasks of the services until a shutdown, and the instant of the stop signal: the shutdown, or
an earlier instant at which a service gives it. Up to that instant no service sees another. -/
def tasks (services : List Service) (shutdown : Nat) : List Task × Nat :=
  let alone := services.map (superviseFrom ⟨some shutdown⟩)
  match alone.foldl (fun c t => earlier c (givenBefore shutdown t)) none with
  | none => (alone, shutdown)
  | some 0 => (firstTurns false alone, 0)
  | some c =>
    (alone.map fun t =>
      if givenBefore shutdown t = some c then t else superviseFrom ⟨some c⟩ t.1, c)

/-- The later of two ends, where a missing one is never. -/
def later : Option Nat → Option Nat → Option Nat
  | some a, some b => some (max a b)
  | _, _ => none

/-- The instant at which all tasks have ended, if they do. -/
def allEnded (ts : List Task) : Option Nat :=
  ts.foldl (fun e t => later e t.2.ended) (some 0)

structure Run where
  /-- The instant at which it returns. -/
  finished : Nat
  /-- Whether tasks were aborted then. -/
  aborted : Bool
  /-- What each service did up to then. -/
  traces : List (Service × List (Nat × Supervision.Event))
  ledger : Usage.Ledger

/-- The instants of the daily reports before an instant, and always the first one. -/
def dailyInstants (until_ : Nat) : List Nat :=
  0 :: ((List.range (until_ / Usage.dailyPeriod + 1)).map (· * Usage.dailyPeriod)).filter
    fun t => 0 < t && t < until_

def startEntries (x : Setting) : List Log.Entry :=
  [Log.info "Agent version currently running" [("version", x.integration.agentVersion)],
    Log.info "Cloud properties from metadata server"
      [("project_id", x.cloud.projectId), ("project_number", x.cloud.numericProjectId),
        ("instance_id", x.cloud.instanceId), ("zone", x.cloud.zone),
        ("instance_name", x.cloud.instanceName), ("image", x.cloud.image)]]

/-- The logger once the daemon has set its properties. -/
def Setting.reporter (x : Setting) : Usage.Logger :=
  x.logger.setProperties x.integration true x.cloud

/-- The ledger of a status that is reported at an instant. -/
def reported (x : Setting) (now : Nat) (status : Usage.Status) : Usage.Ledger :=
  .ofOutcome now (Usage.Logger.quiet status (x.reporter.outcome x.delivery status ""))

def serviceLedger (x : Setting) (s : Service) (e : Nat × Supervision.Event) : Usage.Ledger :=
  Supervision.ledger x.reporter x.delivery s e

/-- What was left behind before the daemon runs. -/
def beforehand (x : Setting) : Usage.Ledger :=
  if x.dailyStarted then .ofEntries 0 [Log.debug "Starting daily log of RUNNING status"] else {}

/-- How long the daemon waits after its shutdown, in milliseconds. -/
def Setting.wait (x : Setting) : Nat := x.grace.pauseMillis

/-- The instant until which the daemon waits at most. -/
def Setting.deadline (x : Setting) : Nat := x.shutdown + x.wait

/-- Whether a task still runs at an instant. Without a grace period no task gets a turn after the
shutdown. -/
def Setting.allows (x : Setting) (finished now : Nat) : Bool :=
  if x.wait = 0 then now < x.shutdown else now ≤ finished

/-- The instant at which the daemon sees that all tasks have ended, if that is within the grace
period. Without one, a daily report of its own has to end before the shutdown, too. -/
def endSeen? (x : Setting) (ts : List Task) (stop : Nat) : Option Nat :=
  match allEnded ts with
  | none => none
  | some e =>
    if x.wait = 0 then
      if (x.dailyStarted || stop < x.shutdown) && e < x.shutdown then some x.shutdown else none
    else if e ≤ x.deadline then some (max x.shutdown e) else none

/-- What is left of a task's history at the return of the daemon. One that gives up aborts its
tasks, and only then is anything of them cut off. -/
def Setting.remains {α : Type} (x : Setting) (gaveUp : Bool) (finished : Nat) (instant : α → Nat)
    (history : List α) : List α :=
  if gaveUp then history.filter fun e => x.allows finished (instant e) else history

/-- The instants of the daily reports, given the instant of the stop signal. -/
def dailyReports (x : Setting) (stop finished observed : Nat) (gaveUp : Bool) : List Nat :=
  if x.dailyStarted then dailyInstants (finished + observed + 1)
  else x.remains gaveUp finished id (dailyInstants stop)

/-- What the daemon itself leaves behind up to its shutdown, less the reports. -/
def openingEntries (x : Setting) (r : Registry) : List Log.Entry :=
  Log.info "Daemon started" ::
    r.names.map (fun name => Log.info "Daemon starting service" [("service", name)]) ++
    [Log.debug (if x.dailyStarted then "Daily log of RUNNING status already started"
      else "Starting daily log of RUNNING status")]

def closingEntries (x : Setting) (aborted : Bool) : List Log.Entry :=
  (if aborted then
    [Log.warn "Services did not stop within the grace period" [("grace_period", x.grace.text)]]
  else []) ++ [Log.info "Shutting down..."]

/-- Runs the services of a registry. Reports and entries after the return of the daemon, up to
`observed` milliseconds later, come only from a daily report that was started before. -/
def run (x : Setting) (r : Registry) (observed : Nat) : Except DaemonFault Run :=
  if r.services.isEmpty then .error .noServices
  else
    let (ts, stop) := tasks r.services x.shutdown
    let seen := endSeen? x ts stop
    let finished := seen.getD x.deadline
    let gaveUp := seen.isNone
    let traces := ts.map fun t => (t.1, x.remains gaveUp finished Prod.fst t.2.events)
    let daily := dailyReports x stop finished observed gaveUp
    let running (t : Nat) : Usage.Ledger := reported x t .running
    .ok
      { finished, aborted := gaveUp, traces
        ledger := Usage.Ledger.joined
          ([beforehand x, .ofEntries 0 (startEntries x), reported x 0 .started,
              .ofEntries 0 (openingEntries x r)] ++
            (daily.filter (· < x.shutdown)).map running ++
            [.ofEntries x.shutdown
                [Log.info "Shutdown signal observed, the agent will begin shutting down"],
              reported x x.shutdown .stopped] ++
            (daily.filter (x.shutdown ≤ ·)).map running ++
            (traces.flatMap fun t => t.2.map (serviceLedger x t.1)) ++
            [.ofEntries finished (closingEntries x gaveUp)]) }

end Daemon

end ChannelAgent
