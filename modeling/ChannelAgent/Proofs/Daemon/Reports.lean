import ChannelAgent.Proofs.Daemon.Shutdown

set_option autoImplicit false

namespace ChannelAgent

namespace Usage

/-- Whether a report is made no later than another one. -/
def noLater (a b : Nat × Request) : Bool := a.1 ≤ b.1

/-- The reports of a ledger in the order of time; those of one instant stay as they are. -/
def Ledger.chronicle (l : Ledger) : List (Nat × Request) := l.reports.mergeSort noLater

theorem noLater_trans (a b c : Nat × Request) (ab : noLater a b = true) (bc : noLater b c = true) :
    noLater a c = true := by
  simp only [noLater, decide_eq_true_eq] at ab bc ⊢
  exact Nat.le_trans ab bc

theorem noLater_total (a b : Nat × Request) : (noLater a b || noLater b a) = true := by
  simp only [noLater, Bool.or_eq_true, decide_eq_true_eq]
  exact Nat.le_total a.1 b.1

/-- A report goes in front of all that are not earlier. -/
theorem mergeSort_noLater_cons (a : Nat × Request) (l : List (Nat × Request)) :
    ∃ before after, (a :: l).mergeSort noLater = before ++ a :: after ∧
      l.mergeSort noLater = before ++ after ∧ ∀ b ∈ before, b.1 < a.1 := by
  obtain ⟨before, after, sorted, rest, earlier⟩ :=
    List.mergeSort_cons noLater_trans noLater_total a l
  refine ⟨before, after, sorted, rest, fun b found => ?_⟩
  simpa [noLater] using earlier b found

/-- Nothing is earlier than instant zero. -/
theorem mergeSort_noLater_zero (a : Request) (l : List (Nat × Request)) :
    ((0, a) :: l).mergeSort noLater = (0, a) :: l.mergeSort noLater := by
  obtain ⟨before, after, sorted, rest, earlier⟩ := mergeSort_noLater_cons (0, a) l
  obtain rfl : before = [] :=
    List.eq_nil_iff_forall_not_mem.2 fun b found => Nat.not_lt_zero _ (earlier b found)
  rw [sorted, rest]
  rfl

/-- A report that only earlier ones precede parts the earlier ones from the others. -/
theorem mergeSort_noLater_split {early : List (Nat × Request)} (cut : Nat × Request)
    (others : List (Nat × Request)) (earlier : ∀ e ∈ early, e.1 < cut.1) :
    ∃ before after, (early ++ cut :: others).mergeSort noLater = before ++ cut :: after ∧
      (∀ b ∈ before, b.1 < cut.1) ∧ ∀ b ∈ after, cut.1 ≤ b.1 := by
  induction early with
  | nil =>
    obtain ⟨before, after, sorted, -, less⟩ := mergeSort_noLater_cons cut others
    refine ⟨before, after, sorted, less, ?_⟩
    have ordered := List.pairwise_mergeSort noLater_trans noLater_total (cut :: others)
    rw [sorted] at ordered
    have following := (List.pairwise_cons.1 (List.pairwise_append.1 ordered).2.1).1
    exact fun b found => by simpa [noLater] using following b found
  | cons e early ih =>
    obtain ⟨here, earlier⟩ := List.forall_mem_cons.1 earlier
    obtain ⟨before, after, sorted, less, more⟩ := ih earlier
    obtain ⟨front, back, placed, rest, first⟩ :=
      mergeSort_noLater_cons e (early ++ cut :: others)
    have apart : ∃ between, before = front ++ between ∧ back = between ++ cut :: after := by
      obtain split | ⟨between, ahead, beyond⟩ :=
        List.append_eq_append_iff.1 (rest.symm.trans sorted)
      · exact split
      · cases between with
        | nil => exact ⟨[], by simpa using ahead.symm, beyond.symm⟩
        | cons b between =>
          -- the cut is not in front of an earlier report
          obtain ⟨rfl, -⟩ := List.cons.inj beyond
          have misplaced := first cut (by simp [ahead])
          omega
    obtain ⟨between, rfl, rfl⟩ := apart
    refine ⟨front ++ e :: between, after, by simp [placed], fun b found => ?_, more⟩
    rcases List.mem_append.1 found with front | tail
    · exact less b (List.mem_append_left _ front)
    · rcases List.mem_cons.1 tail with rfl | between
      · exact here
      · exact less b (List.mem_append_right _ between)

/-- What comes before the cut and after it, up to order. -/
theorem mergeSort_noLater_parts {early : List (Nat × Request)} (cut : Nat × Request)
    (others : List (Nat × Request)) (earlier : ∀ e ∈ early, e.1 < cut.1) :
    ∃ before after, (early ++ cut :: others).mergeSort noLater = before ++ cut :: after ∧
      before.Perm (early ++ others.filter fun e => e.1 < cut.1) ∧
      after.Perm (others.filter fun e => cut.1 ≤ e.1) := by
  obtain ⟨before, after, sorted, less, more⟩ := mergeSort_noLater_split cut others earlier
  have perm : (before ++ after).Perm (early ++ others) := by
    have all := List.mergeSort_perm (early ++ cut :: others) noLater
    rw [sorted] at all
    exact (List.perm_middle.symm.trans (all.trans List.perm_middle)).cons_inv
  -- all of the early ones and none of the others are before the cut, on both sides
  have parts {first second : List (Nat × Request)} (less : ∀ e ∈ first, e.1 < cut.1) :
      (first ++ second).filter (fun e => e.1 < cut.1) =
          first ++ second.filter (fun e => e.1 < cut.1) ∧
        (first ++ second).filter (fun e => cut.1 ≤ e.1) =
          second.filter fun e => cut.1 ≤ e.1 := by
    constructor
    · rw [List.filter_append, List.filter_eq_self.2 (by simpa using less)]
    · rw [List.filter_append, List.filter_eq_nil_iff.2 (by simpa using less), List.nil_append]
  have none_before : after.filter (fun e => e.1 < cut.1) = [] :=
    List.filter_eq_nil_iff.2 (by simpa using more)
  have all_after : after.filter (fun e => cut.1 ≤ e.1) = after :=
    List.filter_eq_self.2 (by simpa using more)
  have perm_before := perm.filter fun e => e.1 < cut.1
  have perm_after := perm.filter fun e => cut.1 ≤ e.1
  rw [(parts less).1, (parts earlier).1, none_before, List.append_nil] at perm_before
  rw [(parts less).2, (parts earlier).2, all_after] at perm_after
  exact ⟨before, after, sorted, perm_before, perm_after⟩

end Usage

namespace Daemon

open Supervision

/-- The report of a status by the agent of a daemon, on its instance. -/
def Setting.report (x : Setting) (status : String) : Usage.Request where
  url := Usage.instanceUrl x.cloud
  userAgent := Usage.withoutBlanks
    ("gwap" ++ "/" ++ x.integration.agentName ++ "/" ++ x.integration.agentVersion ++ "/" ++ status)
  project := if x.cloud.projectId.isEmpty then none else some x.cloud.projectId

/-- Nothing keeps a daemon from making its reports: its usage logger is fresh, the zone is known,
and the project is not excluded. -/
structure Setting.Reporting (x : Setting) : Prop where
  fresh : x.logger = .new x.logger.exclusions
  own : x.dailyStarted = false
  located : x.cloud.zone ≠ ""
  included : x.cloud.numericProjectId ∉ x.logger.exclusions

/-- Every status is reported to an address, whatever comes of it. -/
def Setting.Heard (x : Setting) (url : String) : Prop :=
  ∀ status value, (x.reporter.outcome x.delivery status value).report =
    some { x.report (Usage.Logger.statusText status value) with url }

/-- The reports of the failures of a service until the daemon returns. Without a grace period no
task gets a turn at the shutdown. -/
def Life.errors (x : Setting) (finished : Nat) (l : Life) : List (Nat × Usage.Request) :=
  (l.failures.filter fun t => t ≤ finished && (x.wait ≠ 0 || t < x.shutdown)).map
    fun t => (t, x.report ("ERROR/" ++ toString l.service.code))

/-- The reports of a run: they are told in the order of time, and parted by the STOPPED report. -/
structure Accounted (x : Setting) (lives : List Life) (stop : Nat) (run : Run) (days : List Nat)
    (before after : List (Nat × Usage.Request)) : Prop where
  daily : ∀ t, t ∈ days ↔ t = 0 ∨ ∃ k, t = k * Usage.dailyPeriod ∧ t < stop
  increasing : days.Pairwise (· < ·)
  chronicle : run.ledger.chronicle =
    (0, x.report "STARTED") :: (before ++ (x.shutdown, x.report "STOPPED") :: after)
  up_to_shutdown : before.Perm (days.map (fun t => (t, x.report "RUNNING")) ++
    (lives.flatMap (Life.errors x run.finished)).filter fun e => e.1 < x.shutdown)
  since_shutdown : after.Perm
    ((lives.flatMap (Life.errors x run.finished)).filter fun e => x.shutdown ≤ e.1)
  panics : ∀ e ∈ after,
    ∃ l ∈ lives, ∃ st ∈ l.stints, ∃ message, st.result.ending = .panicked e.1 message

section

variable {x : Setting} {services : List Service} {ts : List Task} {lives : List Life}
  {stop observed : Nat}

/-- The agent that a daemon reports for. -/
theorem reporting?_reporter (x : Setting) : x.reporter.reporting? = some
    { name := x.integration.agentName, version := x.integration.agentVersion, enabled := true
      leading := Usage.Logger.standardLeading } := rfl

theorem cloud_reporter (x : Setting) : x.reporter.cloud.getD {} = x.cloud := rfl

theorem platform_reporter (x : Setting) : x.reporter.platform = x.logger.platform := rfl

theorem exclusions_reporter (x : Setting) : x.reporter.exclusions = x.logger.exclusions := rfl

/-- A known location and a project that is not excluded are all that reports need. -/
theorem Setting.heard {url : String}
    (located : Usage.Logger.url x.cloud x.logger.platform = .ok url)
    (included : x.cloud.numericProjectId ∉ x.logger.exclusions) : x.Heard url := by
  intro status value
  rw [Usage.Logger.report_outcome (reporting?_reporter x)]
  simp only [Usage.Logger.request, cloud_reporter, platform_reporter, exclusions_reporter, located,
    included, ↓reduceIte]
  rfl

theorem Setting.Heard.reported {url : String} (heard : x.Heard url) (now : Nat)
    (status : Usage.Status) :
    (reported x now status).reports = [(now, { x.report status.name with url })] := by
  rw [Daemon.reported, Usage.Ledger.reports_ofOutcome, Usage.Logger.report_quiet, heard]
  rfl

theorem Setting.Reporting.heard (reporting : x.Reporting) :
    x.Heard (Usage.instanceUrl x.cloud) := by
  have zone : x.cloud.zone.isEmpty = false := String.isEmpty_eq_false_iff.2 reporting.located
  have platform : x.logger.platform = .gce := by
    rw [reporting.fresh]
    rfl
  refine Setting.heard ?_ reporting.included
  simp only [platform, Usage.Logger.url, zone, Bool.false_eq_true, ↓reduceIte]

theorem Setting.Reporting.reported (reporting : x.Reporting) (now : Nat) (status : Usage.Status) :
    (reported x now status).reports = [(now, x.report status.name)] :=
  reporting.heard.reported now status

theorem Setting.Reporting.report? (reporting : x.Reporting) (s : Service) :
    Supervision.report? x.reporter x.delivery s =
      some (x.report ("ERROR/" ++ toString s.code)) := by
  rw [Supervision.report?, reporting.heard, Usage.Logger.statusText_code]
  rfl

/-- All reports of a daily task of the daemon come before the shutdown. -/
theorem Setting.days_own {finished : Nat} (own : x.dailyStarted = false) (later : 0 < x.shutdown)
    (within : stop ≤ x.shutdown) (no_sooner : x.shutdown ≤ finished) :
    x.days stop finished observed = dailyInstants stop := by
  rw [Setting.days, own]
  exact List.filter_eq_self.2 fun t due =>
    Setting.allows_of_lt no_sooner (lt_of_dailyInstants later within due)

theorem Setting.allows_eq {finished : Nat} (no_sooner : x.shutdown ≤ finished) (t : Nat) :
    x.allows finished t = (t ≤ finished && (x.wait ≠ 0 || t < x.shutdown)) := by
  rw [Bool.eq_iff_iff]
  by_cases none : x.wait = 0
  · simp only [allows, none, ↓reduceIte, Bool.and_eq_true, Bool.or_eq_true, decide_eq_true_eq]
    omega
  · simp [allows, none]

theorem errors_told {finished : Nat} (reporting : x.Reporting)
    (no_sooner : x.shutdown ≤ finished)
    (told : List.Forall₂ (Tells x.shutdown stop) ts lives) :
    (ts.map fun t => (t.1, t.2.events.filter fun e => x.allows finished e.1)).flatMap
        (fun t => t.2.flatMap fun e => (serviceLedger x t.1 e).reports) =
      lives.flatMap (Life.errors x finished) := by
  induction told with
  | nil => rfl
  | @cons t l ts lives here _ ih =>
    have allowed : x.allows finished =
        fun t => decide (t ≤ finished) && (decide (x.wait ≠ 0) || decide (t < x.shutdown)) :=
      funext (Setting.allows_eq no_sooner)
    have errors : (t.2.events.filter fun e => x.allows finished e.1).flatMap
        (fun e => (serviceLedger x t.1 e).reports) = l.errors x finished := by
      unfold serviceLedger
      rw [reports_ledger, instants_filter, here.failures, here.service, reporting.report?, allowed]
      exact List.flatMap_pure_eq_map ..
    rw [List.map_cons, List.flatMap_cons, List.flatMap_cons, ih, errors]

theorem Life.Led.panics {l : Life} (led : l.Led x.shutdown stop) (within : stop ≤ x.shutdown)
    {t : Nat} (fails : t ∈ l.failures) (late : x.shutdown ≤ t) :
    ∃ st ∈ l.stints, ∃ message, st.result.ending = .panicked t message := by
  obtain ⟨st, found, fails⟩ := List.mem_flatMap.1 fails
  refine ⟨st, found, ?_⟩
  obtain ⟨c, no_later, fires⟩ := led.fires within st found
  unfold Stint.failures at fails
  split at fails
  · rename_i t' message ends
    obtain rfl := List.mem_singleton.1 fails
    exact ⟨message, ends⟩
  · split at fails
    · -- a return is too early only before the signal
      rename_i t' ends early
      obtain rfl := List.mem_singleton.1 fails
      have unfired := (Signal.not_fired_iff _ _).1 early.1 c fires
      omega
    · cases fails
  · cases fails

theorem Returns.reports_eq {run : Run} (returns : Returns x ts stop observed run)
    (reporting : x.Reporting) (later : 0 < x.shutdown) (within : stop ≤ x.shutdown)
    (told : List.Forall₂ (Tells x.shutdown stop) ts lives) :
    run.ledger.reports = (0, x.report "STARTED") ::
      ((dailyInstants stop).map (fun t => (t, x.report "RUNNING")) ++
        (x.shutdown, x.report "STOPPED") :: lives.flatMap (Life.errors x run.finished)) := by
  have daily : x.days stop run.finished observed = dailyInstants stop :=
    Setting.days_own reporting.own later within returns.no_sooner
  have early : ∀ t ∈ dailyInstants stop, t < x.shutdown := fun t due =>
    lt_of_dailyInstants later within due
  have before : (dailyInstants stop).filter (· < x.shutdown) = dailyInstants stop :=
    List.filter_eq_self.2 fun t found => decide_eq_true (early t found)
  have after : (dailyInstants stop).filter (x.shutdown ≤ ·) = [] :=
    List.filter_eq_nil_iff.2 fun t found => by simpa using early t found
  have running : (dailyInstants stop).flatMap (fun t => (reported x t .running).reports) =
      (dailyInstants stop).map fun t => (t, x.report "RUNNING") := by
    simp only [reporting.reported]
    exact List.flatMap_pure_eq_map ..
  rw [returns.reports, daily, before, after, running, returns.traces,
    errors_told reporting returns.no_sooner told, reporting.reported, reporting.reported]
  simp [Usage.Status.name]

theorem Returns.accounted {run : Run} (returns : Returns x ts stop observed run)
    (reporting : x.Reporting) (later : 0 < x.shutdown) (lived : Lived services x.shutdown stop lives)
    (told : List.Forall₂ (Tells x.shutdown stop) ts lives) :
    ∃ before after, Accounted x lives stop run (dailyInstants stop) before after := by
  have early : ∀ e ∈ (dailyInstants stop).map (fun t => (t, x.report "RUNNING")),
      e.1 < x.shutdown := by
    intro e found
    obtain ⟨t, due, rfl⟩ := List.mem_map.1 found
    exact lt_of_dailyInstants later lived.within due
  obtain ⟨before, after, sorted, perm_before, perm_after⟩ :=
    Usage.mergeSort_noLater_parts (x.shutdown, x.report "STOPPED")
      (lives.flatMap (Life.errors x run.finished)) early
  refine ⟨before, after, fun t => mem_dailyInstants t stop, dailyInstants_increasing stop, ?_,
    perm_before, perm_after, fun e found => ?_⟩
  · rw [Usage.Ledger.chronicle, returns.reports_eq reporting later lived.within told,
      Usage.mergeSort_noLater_zero, sorted]
  · obtain ⟨found, late⟩ := List.mem_filter.1 (perm_after.mem_iff.1 found)
    obtain ⟨l, led, found⟩ := List.mem_flatMap.1 found
    obtain ⟨t, fails, rfl⟩ := List.mem_map.1 found
    obtain ⟨st, found, panics⟩ := (lived.led l led).panics lived.within
      (List.mem_filter.1 fails).1 (by simpa using late)
    exact ⟨l, led, st, found, panics⟩

end

/-- A daemon on an instance with a known zone, and with a grace period of a second. -/
def zoned (shutdown : Nat) : Setting where
  integration := {}
  cloud := { zone := "zone" }
  logger := .new []
  delivery := .sure
  dailyStarted := false
  grace := .ofSeconds 1
  shutdown := shutdown

/-- It does not mind the stop signal and panics after seven and a half seconds. -/
def belated : Service where
  name := "belated"
  code := 54
  interval := none
  minimum := .zero
  work := Service.scripted fun _ =>
    { sleeps := 7500, heedsStop := false, finish := .panics "too late" }

def flakyAndBelated : Registry := ⟨[flaky, belated], by decide⟩

def quitting : Registry := ⟨[quitter], by decide⟩

end Daemon

end ChannelAgent
