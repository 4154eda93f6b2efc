import ChannelAgent.Daemon.Basic
import ChannelAgent.Session.Journal
import ChannelAgent.Session.Script
import ChannelAgent.Settings.Configuration

set_option autoImplicit false

namespace ChannelAgent.Agent

def noting (entry : Log.Entry) : Service.Work where
  call _ now signal := ⟨.returned now, [(now, .noted entry)], signal⟩
  spans _ now _ := .event _ (Nat.le_refl now) (Nat.le_refl now)
  giving _ now signal := .refl signal now

def fast (c : Configuration) : Service where
  name := "Fast Service"
  code := 51
  interval := some c.fastInterval
  minimum := .ofSeconds 0
  work := noting (Log.info "Fast Service Processing")

def slow (c : Configuration) : Service where
  name := "Slow Service"
  code := 52
  interval := some c.slowInterval
  minimum := .ofSeconds 0
  work := noting (Log.info "Slow Service Processing")

structure Surroundings where
  /-- How sessions on a channel fare at an address. -/
  reach : (address channel : String) → Session.Script
  /-- The wording of faults in JSON. -/
  describe : Json.Fault → String

/-- The broker that is used when no endpoint is configured. -/
def defaultEndpoint : String := "localhost:8950"

def brokerAddress (settings : ChannelSettings) : String :=
  (endpointOverride? settings.endpoint).getD defaultEndpoint

def stoppedEntry (x : Surroundings) (channel : String) (s : Session.State Backoff) : Log.Entry :=
  match s.result with
  | .ok () => Log.info "Stopped ACS communication" [("channel", channel)]
  | .error f =>
    Log.warn "Stopped ACS communication"
      [("channel", channel), ("last_error", f.text x.describe)]

/-- The session of a channel from an instant on, given the properties for its handler. -/
def session (x : Surroundings) (settings : ChannelSettings) (cloud : CloudProperties) (now : Nat)
    (signal : Signal) : Session.Run Backoff × List Session.Timed :=
  let script := x.reach (brokerAddress settings) settings.channel
  (Session.Run.start Backoff.standard now signal script cloud).course

/-- The log entries of an event of a session that connects to an address. -/
def eventEntries (x : Surroundings) (settings : ChannelSettings) (e : Session.Event) :
    List Log.Entry :=
  let opened :=
    match e with
    | .connected _ =>
      [Log.debug "Opened channel connection"
        [("endpoint", brokerAddress settings), ("channel", settings.channel)]]
    | _ => []
  opened ++ e.entries x.describe settings.endpoint settings.channel

def startedEntry (channel : String) : Log.Entry :=
  Log.info "Starting ACS communication" [("channel", channel)]

/-- The work of the channel service: one session, with what it writes to the log. -/
def communicating (x : Surroundings) (settings : ChannelSettings) (cloud : CloudProperties) :
    Service.Work where
  call _ now signal :=
    let (run, events) := session x settings cloud now signal
    let entries := events.flatMap fun e =>
      (eventEntries x settings e.2).map fun entry => (e.1, Service.Event.noted entry)
    Service.Course.after ((now, .noted (startedEntry settings.channel)) :: entries) <|
      if run.state.stage = .finished then
        ⟨.returned run.now, [(run.now, .noted (stoppedEntry x settings.channel run.state))],
          run.signal⟩
      else ⟨.endless, [], run.signal⟩
  spans _ now signal := by
    have told : Spans now (session x settings cloud now signal).2
        (some (session x settings cloud now signal).1.now) :=
      Session.Run.spans_course (.start ..)
    have begun : Spans now [(now, Service.Event.noted (startedEntry settings.channel))] (some now) :=
      .event _ (Nat.le_refl now) (Nat.le_refl now)
    have entries := begun.trans (told.flatMap fun e =>
      (eventEntries x settings e).map Service.Event.noted)
    simp only [List.map_map] at entries
    simp only [Service.Course.after]
    split
    · exact entries.trans (.event _ (Nat.le_refl _) (Nat.le_refl _))
    · exact .never now _
  giving _ now signal := by
    have becomes : signal.Becomes now (session x settings cloud now signal).1.signal :=
      Session.Run.becomes_course (.start ..)
    simp only [Service.Course.after]
    split <;> exact becomes

def communication (x : Surroundings) (settings : ChannelSettings) (cloud : CloudProperties) :
    Service where
  name := "ACS Communication Service"
  code := 53
  interval := none
  minimum := .ofSeconds 0
  work := communicating x settings cloud

/-- The services for a configuration, in the order in which they are started. -/
def roster (x : Surroundings) (c : Configuration) (cloud : CloudProperties) : List Service :=
  [fast c, slow c] ++ (c.channel?.map fun settings => communication x settings cloud).toList

def registry (x : Surroundings) (c : Configuration) (cloud : CloudProperties) : Registry where
  services := roster x c cloud
  distinct := by
    unfold roster
    cases c.channel? <;> simp [fast, slow, communication]

end ChannelAgent.Agent
