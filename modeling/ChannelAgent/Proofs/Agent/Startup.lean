import ChannelAgent.Agent.Startup
import ChannelAgent.Proofs.Daemon.Lifecycle
import ChannelAgent.Proofs.Session.Turn
import ChannelAgent.Proofs.Settings.RoundTrip

set_option autoImplicit false

namespace ChannelAgent

namespace Session

variable {β : Type}

def Event.given? : Event → Option CloudProperties
  | .handling _ properties _ => some properties
  | _ => none

/-- The properties that the handler calls among some events are given. -/
def given (events : List Timed) : List CloudProperties := events.filterMap fun e => e.2.given?

@[simp] theorem given_nil : given [] = [] := rfl

@[simp] theorem given_cons (e : Timed) (rest : List Timed) :
    given (e :: rest) = e.2.given?.toList ++ given rest := by
  unfold given
  cases found : e.2.given? <;> simp [found]

@[simp] theorem given_append (first second : List Timed) :
    given (first ++ second) = given first ++ given second :=
  List.filterMap_append

@[simp] theorem given_parting (r : Run β) (t : Nat) : given (r.parting.map fun e => (t, e)) = [] :=
  r.filterMap_parting t fun _ => rfl

variable [RetryPolicy β]

theorem Turn.properties_eq {r next : Run β} {events : List Timed} (turn : Turn r next events) :
    next.properties = r.properties := by
  cases turn <;> rfl

/-- A step gives its handler the properties of the run. -/
theorem Turn.given_eq {r next : Run β} {events : List Timed} (turn : Turn r next events) :
    ∀ p ∈ given events, p = r.properties := by
  cases turn with
  | endless going call never silent =>
    unfold Run.call? at call
    split at call <;> cases call <;> simp [Event.given?]
  | _ => simp [Event.given?]

/-- A run, and all that its handlers were given so far, is as the session was started. -/
structure Constant (session : Run β) (events : List Timed) (r : Run β) : Prop where
  properties : r.properties = session.properties
  given : ∀ p ∈ given events, p = session.properties

theorem Constant.turn {session r next : Run β} {past events : List Timed} (turn : Turn r next events)
    (constant : Constant session past r) : Constant session (past ++ events) next where
  properties := turn.properties_eq.trans constant.properties
  given p found := by
    rw [given_append] at found
    rcases List.mem_append.1 found with found | found
    · exact constant.given p found
    · exact (turn.given_eq p found).trans constant.properties

/-- A run gives all its handlers the properties with which it starts. -/
theorem Run.given_steps (r : Run β) (n : Nat) : ∀ p ∈ given (r.steps n).2, p = r.properties := by
  have start : Constant r [] r := ⟨rfl, nofun⟩
  have constant : Constant r (r.steps n).2 (r.steps n).1 :=
    steps_keep start (fun _ _ _ _ => Constant.turn) n
  exact constant.given

end Session

namespace Daemon

section

variable {x : Setting} {ts : List Task} {stop observed : Nat} {run : Run}

theorem Setting.Unheard.reported_eq (unheard : x.Unheard) (now : Nat) (status : Usage.Status) :
    (reported x now status).reports = [] := by
  rw [reported, Usage.Ledger.reports_ofOutcome, Usage.Logger.report_quiet, unheard]
  rfl

theorem Setting.Unheard.serviceLedger_eq (unheard : x.Unheard) (s : Service)
    (event : Nat × Supervision.Event) : (serviceLedger x s event).reports = [] := by
  unfold serviceLedger Supervision.ledger
  split
  · rw [Usage.Ledger.reports_append, Usage.Ledger.reports_ofOutcome, Usage.Logger.report_quiet,
      unheard]
    rfl
  · rfl

theorem Setting.Unheard.reports_eq (unheard : x.Unheard) (returns : Returns x ts stop observed run) :
    run.ledger.reports = [] := by
  rw [returns.reports]
  simp [unheard.reported_eq, unheard.serviceLedger_eq]

/-- Whatever a daemon reports is a status of its own, or the error of a service that it ran. -/
theorem Returns.told {url : String} (returns : Returns x ts stop observed run)
    (heard : x.Heard url) {e : Nat × Usage.Request} (found : e ∈ run.ledger.reports) :
    ∃ text, e.2 = { x.report text with url } ∧
      (text ∈ ["STARTED", "RUNNING", "STOPPED"] ∨
        ∃ t ∈ run.traces, text = "ERROR/" ++ toString t.1.code) := by
  have own {now : Nat} {status : Usage.Status} (made : e ∈ (reported x now status).reports) :
      e.2 = { x.report status.name with url } := by
    rw [heard.reported] at made
    rw [List.mem_singleton.1 made]
  have daily {days : List Nat}
      (made : e ∈ days.flatMap fun t => (reported x t .running).reports) :
      e.2 = { x.report Usage.Status.running.name with url } := by
    obtain ⟨t, -, made⟩ := List.mem_flatMap.1 made
    exact own made
  rw [returns.reports] at found
  simp only [List.mem_append] at found
  rcases found with (((made | made) | made) | made) | made
  · exact ⟨_, own made, .inl (by decide)⟩
  · exact ⟨_, daily made, .inl (by decide)⟩
  · exact ⟨_, own made, .inl (by decide)⟩
  · exact ⟨_, daily made, .inl (by decide)⟩
  · obtain ⟨t, ran, made⟩ := List.mem_flatMap.1 made
    obtain ⟨event, -, made⟩ := List.mem_flatMap.1 made
    exact ⟨_, heard.eq_of_serviceLedger made, .inr ⟨t, ran, rfl⟩⟩

end

end Daemon

namespace Agent

open Usage (Desk)

/-- The user agent under which an agent reports a text. -/
def userAgent (i : Integration) (text : String) : String :=
  Usage.withoutBlanks ("gwap" ++ "/" ++ i.agentName ++ "/" ++ i.agentVersion ++ "/" ++ text)

/-- The report of a text to an address, charged to the project of an instance. -/
def reportOf (i : Integration) (cloud : CloudProperties) (url text : String) : Usage.Request where
  url := url
  userAgent := userAgent i text
  project := if cloud.projectId.isEmpty then none else some cloud.projectId

/-- The daemon that the agent runs for an instance. -/
def daemonSetting (i : Integration) (cloud : CloudProperties) (shutdown : Nat) (d : Desk) :
    Daemon.Setting where
  integration := i
  cloud := cloud
  logger := d.logger
  delivery := d.delivery
  dailyStarted := false
  grace := Daemon.standardGrace
  shutdown := shutdown

/-- How a configuration that does not load is told to the backend. -/
def refusal : Configuration.File → String
  | .error _ | .ok [] => "ERROR/1"
  | .ok (_ :: _) => "ERROR/2"

/-- A start with a configuration that does not load. -/
structure Refused (i : Integration) (cloud : CloudProperties) (file : Configuration.File) (d : Desk)
    (f : ConfigurationFault) (o : Outcome) : Prop where
  result : o.result = .error (.configuration f)
  idle : o.running = {}
  /-- No service has begun a run. -/
  unstarted : ∀ s : Service, ∀ e ∈ o.ledger.entries, e.2 ∉ Supervision.Event.starting.entries s
  /-- The one report goes to the instance of the metadata. -/
  told : ∀ url, Usage.Logger.url cloud d.logger.platform = .ok url →
    o.ledger.reports = [(d.now, reportOf i cloud url (refusal file))]
  untold : ∀ fault, Usage.Logger.url cloud d.logger.platform = .error fault → o.ledger.reports = []
  zoned : d.logger.platform = .gce → (o.ledger.reports = [] ↔ cloud.zone = "")
  /-- That report is no status of a daemon. -/
  lifeless : ∀ e ∈ o.ledger.reports, ∀ text ∈ ["STARTED", "RUNNING", "STOPPED"],
    e.2.userAgent ≠ userAgent i text

/-- A start with a configuration that loads, by which the agent speaks for the instance of `p`. -/
structure Served (x : Surroundings) (i : Integration) (cloud : CloudProperties) (shutdown : Nat)
    (d : Desk) (c : Configuration) (p : CloudProperties) (run : Daemon.Run) (o : Outcome) : Prop where
  /-- Properties in the configuration stand as a whole if they name a project. -/
  configured : ∀ q, c.cloudProperties = some q → q.projectId ≠ "" → p = q
  unconfigured : (∀ q, c.cloudProperties = some q → q.projectId = "") → p = cloud
  result : o.result = .ok ()
  ran : Daemon.run (daemonSetting i p shutdown d) (registry x c.applyDefaults p) 0 = .ok run
  reports : o.ledger.reports = run.ledger.reports
  alone : (∀ settings, c.communication = some settings → settings.channel = "") →
    run.traces.map (·.1) = [fast c.applyDefaults, slow c.applyDefaults]
  communicating : ∀ settings, c.communication = some settings → settings.channel ≠ "" →
    run.traces.map (·.1) =
      [fast c.applyDefaults, slow c.applyDefaults, communication x settings p]
  paced : ∀ t ∈ run.traces, ∀ interval, t.1.interval = some interval →
    (Duration.ofSeconds 1).toNanos ≤ interval.toNanos
  addressed : ∀ e ∈ o.ledger.reports, ∃ url text,
    Usage.Logger.url p d.logger.platform = .ok url ∧ e.2 = reportOf i p url text ∧
      text ∈ ["STARTED", "RUNNING", "STOPPED", "ERROR/51", "ERROR/52", "ERROR/53"]
  blameless : ∀ e ∈ o.ledger.reports, ∀ text ∈ ["ERROR/1", "ERROR/2"],
    e.2.userAgent ≠ userAgent i text
  framed : ∀ url, Usage.Logger.url p d.logger.platform = .ok url →
    p.numericProjectId ∉ d.logger.exclusions →
      (0, reportOf i p url "STARTED") ∈ o.ledger.reports ∧
        (shutdown, reportOf i p url "STOPPED") ∈ o.ledger.reports
  /-- The sessions that a channel service holds hand on the properties of the reports. -/
  handed : ∀ settings now signal,
    ∀ q ∈ Session.given (session x settings p now signal).2, q = p

section

variable {x : Surroundings} {path : String} {file : Configuration.File} {i : Integration}
  {cloud p : CloudProperties} {shutdown : Nat} {log : Log.Setup} {d : Desk} {c : Configuration}
  {f : ConfigurationFault}

theorem refusal_eq (refused : Configuration.read path file = .error f) :
    "ERROR/" ++ toString f.usageCode = refusal file := by
  unfold Configuration.read at refused
  split at refused
  · cases refused
    rfl
  · rename_i content
    cases content with
    | nil =>
      cases refused
      rfl
    | cons b bytes =>
      simp only [Configuration.parse, List.isEmpty_cons, Bool.false_eq_true, ↓reduceIte] at refused
      split at refused <;> cases refused
      rfl

/-- What is left behind by a start without a configuration. -/
theorem startDaemon_of_error (refused : Configuration.read path file = .error f) :
    startDaemon x path file i cloud shutdown log d =
      { result := .error (.configuration f), finished := d.now
        loading := .ofEntries d.now
            (Log.info "Reading configuration" [("path", path)] :: Configuration.readEntries path file) ++
          .ofEntries d.now [Log.error "Could not read configuration" [("error", f.text x.describe)]] ++
          .ofOutcome d.now (Usage.Logger.quiet .error
            ((daemonSetting i cloud shutdown d).reporter.outcome (daemonSetting i cloud shutdown d).delivery
              .error (toString f.usageCode)))
        running := {}, log } := by
  simp only [startDaemon, loadConfiguration, refused]
  rfl

/-- What the log says of an attempt to report. -/
theorem message_of_outcome {l : Usage.Logger} {delivery : Usage.Delivery} {status : Usage.Status}
    {value : String} {e : Log.Entry} (found : e ∈ (l.outcome delivery status value).entries) :
    e.message ∈ ["logging status", "failed to send agent status",
      "Unable to send GCE agent status without zone in cloud properties",
      "Unable to send Cloud Run agent status without region in cloud properties"] := by
  unfold Usage.Logger.outcome at found
  split at found
  · cases found
  · dsimp only at found
    split at found
    · rename_i fault _
      rcases List.mem_cons.1 found with rfl | found
      · simp [Log.debug]
      · cases fault <;> simp [Usage.Logger.refusalEntries] at found <;> simp [found, Log.warn]
    · obtain rfl := List.mem_singleton.1 found
      simp [Log.debug]
    · split at found
      · obtain rfl := List.mem_singleton.1 found
        simp [Log.debug]
      · simp only [List.mem_cons, List.not_mem_nil, or_false] at found
        rcases found with rfl | rfl <;> simp [Log.debug, Log.warn]

theorem message_of_quiet {status : Usage.Status} {o : Usage.Outcome} {e : Log.Entry}
    (found : e ∈ (Usage.Logger.quiet status o).entries) :
    e ∈ o.entries ∨ e.message = "Could not log usage" := by
  unfold Usage.Logger.quiet at found
  split at found
  · exact .inl found
  · exact (List.mem_append.1 found).imp_right fun last => by rw [List.mem_singleton.1 last]; rfl

theorem message_of_readEntries {e : Log.Entry} (found : e ∈ Configuration.readEntries path file) :
    e.message ∈ ["Could not read from configuration file", "Configuration file is empty",
      "Invalid content in the configuration file"] := by
  unfold Configuration.readEntries at found
  split at found
  · obtain rfl := List.mem_singleton.1 found
    simp [Log.error]
  · split at found
    · obtain rfl := List.mem_singleton.1 found
      simp [Log.error]
    · obtain rfl := List.mem_singleton.1 found
      simp [Log.error]
    · cases found

theorem starting_notMem {e : Log.Entry} (other : e.message ≠ "Starting service routine") (s : Service) :
    e ∉ Supervision.Event.starting.entries s := by
  intro found
  obtain rfl := List.mem_singleton.1 found
  exact other rfl

/-- The log tells nothing of a service when the configuration does not load. -/
theorem unstarted_of_error (refused : Configuration.read path file = .error f) (s : Service) :
    ∀ e ∈ (startDaemon x path file i cloud shutdown log d).ledger.entries,
      e.2 ∉ Supervision.Event.starting.entries s := by
  let attempt := (daemonSetting i cloud shutdown d).reporter.outcome d.delivery .error
    (toString f.usageCode)
  let noted := (Log.info "Reading configuration" [("path", path)] ::
      Configuration.readEntries path file) ++
    [Log.error "Could not read configuration" [("error", f.text x.describe)]] ++
    (Usage.Logger.quiet .error attempt).entries
  have entries : (startDaemon x path file i cloud shutdown log d).ledger.entries =
      noted.map fun entry => (d.now, entry) := by
    rw [startDaemon_of_error refused, List.map_append, List.map_append]
    exact List.append_nil _
  rw [entries]
  refine List.forall_mem_map.2 fun entry found => starting_notMem ?_ s
  simp only [noted, List.mem_append, List.mem_cons, List.not_mem_nil, or_false] at found
  rcases found with ((rfl | found) | rfl) | found
  · simp [Log.info]
  · exact ne_of_mem_of_not_mem (message_of_readEntries found) (by decide)
  · simp [Log.error]
  · rcases message_of_quiet found with found | last
    · exact ne_of_mem_of_not_mem (message_of_outcome found) (by decide)
    · rw [last]
      decide

/-- What is reported of a configuration that does not load. -/
theorem reports_of_error (refused : Configuration.read path file = .error f) :
    (startDaemon x path file i cloud shutdown log d).ledger.reports =
      (((daemonSetting i cloud shutdown d).reporter.outcome (daemonSetting i cloud shutdown d).delivery
        .error (toString f.usageCode)).report.map fun r => (d.now, r)).toList := by
  rw [startDaemon_of_error refused]
  simp [Outcome.ledger]

theorem told_of_error (included : cloud.numericProjectId ∉ d.logger.exclusions)
    (refused : Configuration.read path file = .error f) {url : String}
    (located : Usage.Logger.url cloud d.logger.platform = .ok url) :
    (startDaemon x path file i cloud shutdown log d).ledger.reports =
      [(d.now, reportOf i cloud url (refusal file))] := by
  have heard : (daemonSetting i cloud shutdown d).Heard url :=
    Daemon.Setting.heard located included
  rw [reports_of_error refused, heard, Usage.Logger.statusText_code, ← refusal_eq refused]
  rfl

theorem untold_of_error (refused : Configuration.read path file = .error f) {fault : Usage.Fault}
    (unlocated : Usage.Logger.url cloud d.logger.platform = .error fault) :
    (startDaemon x path file i cloud shutdown log d).ledger.reports = [] := by
  have unheard : (daemonSetting i cloud shutdown d).Unheard :=
    Daemon.Setting.unheard (.inl fun url located => nomatch unlocated.symm.trans located)
  rw [reports_of_error refused, unheard]
  rfl

/-- Texts that differ in more than blanks are reported under different user agents. -/
theorem userAgent_ne {a b : String} (different : Usage.withoutBlanks a ≠ Usage.withoutBlanks b)
    (i : Integration) : userAgent i a ≠ userAgent i b := by
  intro same
  simp only [userAgent, Usage.withoutBlanks_append _ a, Usage.withoutBlanks_append _ b] at same
  exact different ((String.append_right_inj _).1 same)

theorem refusal_mem (file : Configuration.File) : refusal file ∈ ["ERROR/1", "ERROR/2"] := by
  unfold refusal
  split <;> decide

theorem refused_of_error (included : cloud.numericProjectId ∉ d.logger.exclusions)
    (refused : Configuration.read path file = .error f) :
    Refused i cloud file d f (startDaemon x path file i cloud shutdown log d) where
  result := by rw [startDaemon_of_error refused]
  idle := by rw [startDaemon_of_error refused]
  unstarted := unstarted_of_error refused
  told := fun url located => told_of_error included refused located
  untold := fun fault unlocated => untold_of_error refused unlocated
  zoned := by
    intro gce
    by_cases zone : cloud.zone = ""
    · have unlocated : Usage.Logger.url cloud d.logger.platform = .error .missingZone := by
        rw [gce, Usage.Logger.url, zone]
        rfl
      simp only [untold_of_error refused unlocated, zone]
    · have located : Usage.Logger.url cloud d.logger.platform = .ok (Usage.instanceUrl cloud) := by
        rw [gce, Usage.Logger.url, String.isEmpty_eq_false_iff.2 zone]
        rfl
      simp only [told_of_error included refused located, zone, reduceCtorEq]
  lifeless := by
    intro e found text status
    cases located : Usage.Logger.url cloud d.logger.platform with
    | error fault =>
      rw [untold_of_error refused located] at found
      cases found
    | ok url =>
      rw [told_of_error included refused located] at found
      rw [List.mem_singleton.1 found]
      have different : ∀ a ∈ ["ERROR/1", "ERROR/2"], ∀ b ∈ ["STARTED", "RUNNING", "STOPPED"],
          Usage.withoutBlanks a ≠ Usage.withoutBlanks b := by
        decide
      exact userAgent_ne (different _ (refusal_mem file) _ status) i

theorem effectiveProperties_of_configured {q : CloudProperties}
    (configured : c.cloudProperties = some q) (named : q.projectId ≠ "") :
    effectiveProperties c cloud = q := by
  rw [effectiveProperties, configured, Option.filter_some, String.isEmpty_eq_false_iff.2 named]
  rfl

theorem effectiveProperties_of_unnamed
    (unnamed : ∀ q, c.cloudProperties = some q → q.projectId = "") :
    effectiveProperties c cloud = cloud := by
  unfold effectiveProperties
  cases configured : c.cloudProperties with
  | none => rfl
  | some q =>
    rw [Option.filter_some, unnamed q configured]
    rfl

theorem roster_alone (unnamed : ∀ settings, c.communication = some settings → settings.channel = "") :
    roster x c p = [fast c, slow c] := by
  unfold roster Configuration.channel?
  cases set : c.communication with
  | none => rfl
  | some settings =>
    rw [Option.filter_some, unnamed settings set]
    rfl

theorem roster_communicating {settings : ChannelSettings}
    (set : c.communication = some settings) (named : settings.channel ≠ "") :
    roster x c p = [fast c, slow c, communication x settings p] := by
  rw [roster, Configuration.channel?, set, Option.filter_some,
    String.isEmpty_eq_false_iff.2 named]
  rfl

/-- The services of the agent are no others. -/
theorem roster_cases {s : Service} (found : s ∈ roster x c p) :
    s = fast c ∨ s = slow c ∨ ∃ settings, s = communication x settings p := by
  simp only [roster, List.mem_append, List.mem_cons, List.not_mem_nil, or_false,
    Option.mem_toList, Option.map_eq_some_iff] at found
  rcases found with (rfl | rfl) | ⟨settings, -, rfl⟩
  · exact .inl rfl
  · exact .inr (.inl rfl)
  · exact .inr (.inr ⟨settings, rfl⟩)

theorem interval_of_roster {s : Service} (found : s ∈ roster x c.applyDefaults p)
    {interval : Duration} (periodic : s.interval = some interval) :
    (Duration.ofSeconds 1).toNanos ≤ interval.toNanos := by
  rcases roster_cases found with rfl | rfl | ⟨settings, rfl⟩
  · obtain rfl := Option.some.inj periodic
    exact Configuration.one_second_le c.applyDefaults_positive.1
  · obtain rfl := Option.some.inj periodic
    exact Configuration.one_second_le c.applyDefaults_positive.2
  · cases periodic

theorem code_of_roster {s : Service} (found : s ∈ roster x c p) :
    "ERROR/" ++ toString s.code ∈ ["ERROR/51", "ERROR/52", "ERROR/53"] := by
  have codes : ∀ code ∈ ([51, 52, 53] : List Int),
      "ERROR/" ++ toString code ∈ ["ERROR/51", "ERROR/52", "ERROR/53"] := by
    decide
  refine codes s.code ?_
  rcases roster_cases found with rfl | rfl | ⟨settings, rfl⟩ <;> simp [fast, slow, communication]

/-- What a start with a configuration comes to. -/
theorem startDaemon_of_ok {run : Daemon.Run} (log : Log.Setup)
    (loaded : Configuration.read path file = .ok c)
    (ran : Daemon.run (daemonSetting i (effectiveProperties c cloud) shutdown d)
      (registry x c.applyDefaults (effectiveProperties c cloud)) 0 = .ok run) :
    (startDaemon x path file i cloud shutdown log d).result = .ok () ∧
      (startDaemon x path file i cloud shutdown log d).ledger.reports = run.ledger.reports := by
  have same : effectiveProperties c.applyDefaults cloud = effectiveProperties c cloud := rfl
  unfold daemonSetting at ran
  simp only [startDaemon, loadConfiguration, loaded, same, ran, Outcome.ledger,
    Usage.Ledger.reports_append, Usage.Ledger.reports_ofEntries, List.nil_append, and_self]

/-- A report of a daemon of the agent. -/
theorem addressed_of_returns {run : Daemon.Run} {e : Nat × Usage.Request} {stop : Nat}
    (returns : Daemon.Returns (daemonSetting i p shutdown d)
      (Daemon.tasks (roster x c p) shutdown).1 stop 0 run)
    (found : e ∈ run.ledger.reports) :
    ∃ url text, Usage.Logger.url p d.logger.platform = .ok url ∧ e.2 = reportOf i p url text ∧
      text ∈ ["STARTED", "RUNNING", "STOPPED", "ERROR/51", "ERROR/52", "ERROR/53"] := by
  have none_told (unheard : (daemonSetting i p shutdown d).Unheard) : False := by
    rw [unheard.reports_eq returns] at found
    cases found
  cases located : Usage.Logger.url p d.logger.platform with
  | error fault =>
    exact (none_told (Daemon.Setting.unheard (.inl fun url other =>
      nomatch located.symm.trans other))).elim
  | ok url =>
    by_cases excluded : p.numericProjectId ∈ d.logger.exclusions
    · exact (none_told (Daemon.Setting.unheard (.inr excluded))).elim
    · have heard : (daemonSetting i p shutdown d).Heard url :=
        Daemon.Setting.heard located excluded
      obtain ⟨text, same, own⟩ := returns.told heard found
      refine ⟨url, text, rfl, same, ?_⟩
      rcases own with own | ⟨t, ran, rfl⟩
      · exact List.mem_append_left ["ERROR/51", "ERROR/52", "ERROR/53"] own
      · have service : t.1 ∈ roster x c p := returns.services ▸ List.mem_map_of_mem ran
        exact List.mem_append_right ["STARTED", "RUNNING", "STOPPED"] (code_of_roster service)

theorem served_of_ok (loaded : Configuration.read path file = .ok c) :
    ∃ p run, Served x i cloud shutdown d c p run
      (startDaemon x path file i cloud shutdown log d) := by
  let p := effectiveProperties c cloud
  have some_service : (registry x c.applyDefaults p).services ≠ [] := by
    simp [registry, roster]
  obtain ⟨run, ran, returns⟩ :=
    Daemon.run_returns (daemonSetting i p shutdown d) 0 some_service
  have services : run.traces.map (·.1) = roster x c.applyDefaults p := returns.services
  obtain ⟨result, reports⟩ := startDaemon_of_ok log loaded ran
  refine ⟨p, run, ?_, ?_, result, ran, reports, ?_, ?_, ?_, ?_, ?_, ?_, ?_⟩
  · exact fun q configured named => effectiveProperties_of_configured configured named
  · exact fun unnamed => effectiveProperties_of_unnamed unnamed
  · exact fun unnamed => services.trans (roster_alone unnamed)
  · exact fun settings set named => services.trans (roster_communicating set named)
  · intro t found interval periodic
    exact interval_of_roster (services ▸ List.mem_map_of_mem found) periodic
  · rw [reports]
    exact fun e found => addressed_of_returns returns found
  · rw [reports]
    intro e found text blame
    obtain ⟨url, other, -, same, known⟩ := addressed_of_returns returns found
    have different : ∀ a ∈ ["STARTED", "RUNNING", "STOPPED", "ERROR/51", "ERROR/52", "ERROR/53"],
        ∀ b ∈ ["ERROR/1", "ERROR/2"], Usage.withoutBlanks a ≠ Usage.withoutBlanks b := by
      decide
    rw [same]
    exact userAgent_ne (different other known text blame) i
  · intro url located included
    have heard : (daemonSetting i p shutdown d).Heard url := Daemon.Setting.heard located included
    rw [reports, returns.reports, heard.reported, heard.reported]
    simp only [List.mem_append, List.mem_singleton]
    exact ⟨.inl (.inl (.inl (.inl rfl))), .inl (.inl (.inr rfl))⟩
  · exact fun settings now signal => Session.Run.given_steps _ _

end

/-- Surroundings in which no broker answers. -/
def nobody : Surroundings where
  reach _ _ := .refusing .closed
  describe _ := ""

end Agent

end ChannelAgent
