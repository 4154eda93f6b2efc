import ChannelAgent.Proofs.Daemon.Reports

set_option autoImplicit false

namespace ChannelAgent.Daemon

open Supervision
open Usage (withoutBlanks_append)

/-- Nothing is reported to the backend, whatever the status. -/
def Setting.Unheard (x : Setting) : Prop :=
  ∀ status value, (x.reporter.outcome x.delivery status value).report = none

/-- The report of a status of the daemon itself, if one is made. -/
def Setting.requested (x : Setting) (status : Usage.Status) : Option Usage.Request :=
  (x.reporter.outcome x.delivery status "").report

/-- The status of the daemon that a report tells; a failure of a service is none. -/
def Setting.told? (x : Setting) (r : Usage.Request) : Option Usage.Status :=
  [.started, .running, .stopped].find? fun status => x.requested status = some r

/-- The statuses of the daemon that the backend hears of, in the order of time. -/
def Run.lifecycle (x : Setting) (run : Run) : List Usage.Status :=
  run.ledger.chronicle.filterMap fun e => x.told? e.2

/-- RUNNING is never told after STOPPED, and nothing else is told last. -/
structure EndsStopped (statuses : List Usage.Status) : Prop where
  ordered : statuses.Pairwise fun sooner later => sooner = .stopped → later ≠ .running
  last : ∀ status ∈ statuses.getLast?, status = .stopped

section

variable {x : Setting} {ts : List Task} {stop observed : Nat}

/-- Without a location, or for an excluded project, nothing is reported. -/
theorem Setting.unheard (silent : (∀ url, Usage.Logger.url x.cloud x.logger.platform ≠ .ok url) ∨
    x.cloud.numericProjectId ∈ x.logger.exclusions) : x.Unheard := by
  intro status value
  rw [Usage.Logger.report_outcome (reporting?_reporter x)]
  simp only [Usage.Logger.request, cloud_reporter, platform_reporter, exclusions_reporter]
  cases located : Usage.Logger.url x.cloud x.logger.platform with
  | error fault => rfl
  | ok url =>
    have excluded := silent.resolve_left fun unlocated => unlocated url located
    simp only [excluded, ↓reduceIte]
    rfl

/-- The reports of a daemon are all made or none of them is, and they differ in their texts only. -/
theorem Setting.unheard_or_heard (x : Setting) : x.Unheard ∨ ∃ url, x.Heard url := by
  cases located : Usage.Logger.url x.cloud x.logger.platform with
  | error fault => exact .inl (Setting.unheard (.inl fun url => by rw [located]; exact nofun))
  | ok url =>
    by_cases excluded : x.cloud.numericProjectId ∈ x.logger.exclusions
    · exact .inl (Setting.unheard (.inr excluded))
    · exact .inr ⟨url, Setting.heard located excluded⟩

theorem withoutBlanks_eq_of_report {a b : String} (same : (x.report a).userAgent = (x.report b).userAgent) :
    Usage.withoutBlanks a = Usage.withoutBlanks b := by
  simp only [Setting.report, withoutBlanks_append _ a, withoutBlanks_append _ b] at same
  exact (String.append_right_inj _).1 same

/-- A report tells the status that its text names. -/
theorem Setting.Heard.told? {url : String} (heard : x.Heard url) (text : String) :
    x.told? { x.report text with url } =
      [.started, .running, .stopped].find? fun (status : Usage.Status) =>
        Usage.withoutBlanks status.name = Usage.withoutBlanks text := by
  unfold Setting.told?
  congr 1
  funext status
  rw [Bool.eq_iff_iff, decide_eq_true_eq, decide_eq_true_eq]
  have requested : x.requested status = some { x.report status.name with url } := heard status ""
  rw [requested, Option.some.injEq]
  constructor
  · intro same
    have agents := congrArg Usage.Request.userAgent same
    exact withoutBlanks_eq_of_report agents
  · intro same
    simp only [Setting.report, withoutBlanks_append _ status.name, same, withoutBlanks_append _ text]

theorem Setting.Heard.told?_own {url : String} (heard : x.Heard url) {status : Usage.Status}
    (own : status = .started ∨ status = .running ∨ status = .stopped) :
    x.told? { x.report status.name with url } = some status := by
  rw [heard.told?]
  rcases own with rfl | rfl | rfl <;> decide

theorem Setting.Heard.told?_failure {url : String} (heard : x.Heard url) (code : Int) :
    x.told? { x.report ("ERROR/" ++ toString code) with url } = none := by
  rw [heard.told?, List.find?_eq_none]
  intro status found same
  rw [decide_eq_true_eq, withoutBlanks_append] at same
  have letter : (Usage.withoutBlanks status.name).toList.head? = some 'E' := by
    rw [same, String.toList_append]
    rfl
  simp only [List.mem_cons, List.not_mem_nil, or_false] at found
  rcases found with rfl | rfl | rfl <;> exact absurd letter (by decide)

/-- All that a service reports is the error under its code. -/
theorem Setting.Heard.eq_of_serviceLedger {url : String} (heard : x.Heard url) {s : Service}
    {event : Nat × Event} {e : Nat × Usage.Request} (found : e ∈ (serviceLedger x s event).reports) :
    e.2 = { x.report ("ERROR/" ++ toString s.code) with url } := by
  have report : (x.reporter.outcome x.delivery .error (toString s.code)).report =
      some { x.report ("ERROR/" ++ toString s.code) with url } := by
    rw [heard, Usage.Logger.statusText_code]
    rfl
  unfold serviceLedger Supervision.ledger at found
  split at found
  · simp only [Usage.Ledger.reports_append, Usage.Ledger.reports_ofEntries, List.nil_append,
      Usage.Ledger.reports_ofOutcome, Usage.Logger.report_quiet, report, Option.map_some,
      Option.toList_some, List.mem_singleton] at found
    rw [found]
  · exact absurd found List.not_mem_nil

/-- What a service leaves behind tells no status of the daemon. -/
theorem Setting.Heard.told?_serviceLedger {url : String} (heard : x.Heard url) (s : Service)
    (event : Nat × Event) : ∀ e ∈ (serviceLedger x s event).reports, x.told? e.2 = none := by
  intro e found
  rw [heard.eq_of_serviceLedger found]
  exact heard.told?_failure s.code

theorem Setting.days_increasing (x : Setting) (stop finished observed : Nat) :
    (x.days stop finished observed).Pairwise (· < ·) := by
  unfold Setting.days
  split
  · exact dailyInstants_increasing _
  · exact (dailyInstants_increasing stop).filter _

/-- Reports in the order of time stay in their order, whatever else is reported. -/
theorem filterMap_chronicle {α : Type} {ledger : Usage.Ledger} {own others : List (Nat × Usage.Request)}
    {told : Nat × Usage.Request → Option α} (made : ledger.reports = own ++ others)
    (ordered : own.Pairwise fun a b => a.1 ≤ b.1) (silent : ∀ e ∈ others, told e = none) :
    ledger.chronicle.filterMap told = own.filterMap told := by
  have kept : own.Sublist ledger.chronicle := by
    refine List.sublist_mergeSort Usage.noLater_trans Usage.noLater_total ?_ ?_
    · exact ordered.imp fun less => decide_eq_true less
    · rw [made]
      exact List.sublist_append_left own others
  have all : (ledger.chronicle.filterMap told).Perm (own.filterMap told) := by
    have same := (List.mergeSort_perm ledger.reports Usage.noLater).filterMap told
    have none : others.filterMap told = [] := List.filterMap_eq_nil_iff.2 silent
    rw [made, List.filterMap_append, none, List.append_nil, ← made] at same
    exact same
  -- a part of a list that is no shorter than the list is all of it
  exact ((kept.filterMap told).eq_of_length all.length_eq.symm).symm

/-- The reports of the daemon itself: RUNNING is told on some days, and STOPPED between them. -/
def ownReports (shutdown : Nat) (days : List Nat) (request : Usage.Status → Usage.Request) :
    List (Nat × Usage.Request) :=
  (0, request .started) ::
    ((days.filter (· < shutdown)).map (fun t => (t, request .running)) ++
      (shutdown, request .stopped) ::
        (days.filter (shutdown ≤ ·)).map fun t => (t, request .running))

theorem ownReports_ordered {days : List Nat} (increasing : days.Pairwise (· < ·)) (shutdown : Nat)
    (request : Usage.Status → Usage.Request) :
    (ownReports shutdown days request).Pairwise fun a b => a.1 ≤ b.1 := by
  have runs (p : Nat → Bool) :
      ((days.filter p).map fun t => (t, request .running)).Pairwise fun a b => a.1 ≤ b.1 :=
    List.pairwise_map.2 ((increasing.filter p).imp Nat.le_of_lt)
  have since : ∀ b ∈ (days.filter (shutdown ≤ ·)).map fun t => (t, request .running),
      shutdown ≤ b.1 := by
    intro b found
    obtain ⟨t, due, rfl⟩ := List.mem_map.1 found
    simpa using (List.mem_filter.1 due).2
  refine List.pairwise_cons.2 ⟨fun b _ => Nat.zero_le b.1, List.pairwise_append.2
    ⟨runs _, List.pairwise_cons.2 ⟨since, runs _⟩, fun a first b second => ?_⟩⟩
  obtain ⟨t, due, rfl⟩ := List.mem_map.1 first
  have before : t < shutdown := by simpa using (List.mem_filter.1 due).2
  rcases List.mem_cons.1 second with rfl | second
  · exact Nat.le_of_lt before
  · exact Nat.le_trans (Nat.le_of_lt before) (since b second)

/-- The statuses of the daemon itself are told in the order in which it makes its reports. -/
theorem Returns.lifecycle_eq {run : Run} {url : String} (returns : Returns x ts stop observed run)
    (heard : x.Heard url) :
    let days := x.days stop run.finished observed
    run.lifecycle x = .started ::
      ((days.filter (· < x.shutdown)).map (fun _ => .running) ++
        .stopped :: (days.filter (x.shutdown ≤ ·)).map fun _ => .running) := by
  intro days
  let request (status : Usage.Status) : Usage.Request := { x.report status.name with url }
  have running (ts : List Nat) : ts.flatMap (fun t => (reported x t .running).reports) =
      ts.map fun t => (t, request .running) := by
    simp only [heard.reported]
    exact List.flatMap_pure_eq_map ..
  have made : run.ledger.reports = ownReports x.shutdown days request ++
      run.traces.flatMap fun t => t.2.flatMap fun e => (serviceLedger x t.1 e).reports := by
    rw [returns.reports, running, running, heard.reported, heard.reported]
    simp only [ownReports, List.append_assoc, List.cons_append, List.nil_append]
    rfl
  have ordered := ownReports_ordered (x.days_increasing stop run.finished observed)
    x.shutdown request
  have silent : ∀ e ∈ run.traces.flatMap fun t =>
      t.2.flatMap fun e => (serviceLedger x t.1 e).reports, x.told? e.2 = none := by
    intro e found
    obtain ⟨t, -, found⟩ := List.mem_flatMap.1 found
    obtain ⟨event, -, found⟩ := List.mem_flatMap.1 found
    exact heard.told?_serviceLedger t.1 event e found
  have first : x.told? (request .started) = some .started := heard.told?_own (.inl rfl)
  have last : x.told? (request .stopped) = some .stopped := heard.told?_own (.inr (.inr rfl))
  have daily (ts : List Nat) : (ts.map fun t => (t, request .running)).filterMap
      (fun e => x.told? e.2) = ts.map fun _ => .running := by
    have each : x.told? (request .running) = some .running := heard.told?_own (.inr (.inl rfl))
    rw [List.filterMap_map, ← List.filterMap_eq_map]
    congr 1
    funext t
    exact each
  rw [Run.lifecycle, filterMap_chronicle made ordered silent]
  simp only [ownReports, List.filterMap_cons, List.filterMap_append, first, last, daily]

theorem Setting.Unheard.lifecycle_eq (unheard : x.Unheard) (run : Run) : run.lifecycle x = [] := by
  rw [Run.lifecycle, List.filterMap_eq_nil_iff]
  intro e _
  rw [Setting.told?, List.find?_eq_none]
  intro status _ same
  rw [decide_eq_true_eq, Setting.requested, unheard] at same
  cases same

/-- A lifecycle ends with STOPPED just if RUNNING is told on no day after it. -/
theorem endsStopped_iff (early late : List Nat) :
    EndsStopped (.started ::
        (early.map (fun _ => .running) ++ .stopped :: late.map fun _ => .running)) ↔ late = [] := by
  constructor
  · intro ends
    have since := (List.pairwise_append.1 (List.pairwise_cons.1 ends.ordered).2).2.1
    refine List.eq_nil_iff_forall_not_mem.2 fun t found => ?_
    exact (List.pairwise_cons.1 since).1 .running (List.mem_map.2 ⟨t, found, rfl⟩) rfl rfl
  · rintro rfl
    refine ⟨?_, ?_⟩
    · refine List.pairwise_cons.2 ⟨nofun, List.pairwise_append.2 ⟨?_, by simp, by simp⟩⟩
      exact List.pairwise_map.2 (List.pairwise_of_forall fun _ _ => nofun)
    · rw [← List.cons_append, List.map_nil, List.getLast?_concat]
      exact fun status last => (Option.some.inj last).symm

/-- The days on which RUNNING is told after STOPPED. -/
theorem since_shutdown_iff (within : stop ≤ x.shutdown) (finished : Nat) :
    (x.days stop finished observed).filter (x.shutdown ≤ ·) = [] ↔
      if x.dailyStarted then
        ∀ k, x.shutdown ≤ k * Usage.dailyPeriod → finished + observed < k * Usage.dailyPeriod
      else 0 < x.shutdown ∨ x.wait = 0 := by
  simp only [List.filter_eq_nil_iff, decide_eq_true_eq, Nat.not_le]
  cases others : x.dailyStarted with
  | true =>
    simp only [Setting.days, others, ↓reduceIte, mem_dailyInstants]
    constructor
    · intro early k late
      by_contra due
      have before := early _ (.inr ⟨k, rfl, by omega⟩)
      omega
    · rintro spaced t (rfl | ⟨k, rfl, due⟩)
      · have first := spaced 0
        omega
      · have later := spaced k
        omega
  | false =>
    simp only [Setting.days, others, Bool.false_eq_true, ↓reduceIte, List.mem_filter]
    constructor
    · intro early
      by_contra neither
      have first := early 0 ⟨(mem_dailyInstants 0 stop).2 (.inl rfl), ?_⟩
      · omega
      · rw [Setting.allows, if_neg (by omega)]
        exact decide_eq_true (Nat.zero_le finished)
    · rintro (later | hasty) t ⟨due, allowed⟩
      · exact lt_of_dailyInstants later within due
      · rw [Setting.allows, if_pos hasty] at allowed
        exact of_decide_eq_true allowed

end

/-- A daemon tells RUNNING only before STOPPED, and STOPPED last, just if its daily task begins
before the shutdown, or does not begin at all because there is no grace period. So a daemon whose
shutdown came before it ran does not. A daily task that somebody else started does not heed this
shutdown, and then it depends on the days that are left. Who reports nothing tells nothing out of
order. -/
theorem stopped_is_last_iff (x : Setting) (r : Registry) (observed : Nat)
    (some_service : r.services ≠ []) :
    ∃ run, Daemon.run x r observed = .ok run ∧
      (EndsStopped (run.lifecycle x) ↔ x.requested .running = none ∨
        if x.dailyStarted then
          ∀ k, x.shutdown ≤ k * Usage.dailyPeriod → run.finished + observed < k * Usage.dailyPeriod
        else 0 < x.shutdown ∨ x.wait = 0) := by
  obtain ⟨run, ok, returns⟩ := run_returns x observed some_service
  have within := (tasks_arise r.services x.shutdown).2.1
  refine ⟨run, ok, ?_⟩
  rcases x.unheard_or_heard with unheard | ⟨url, heard⟩
  · have nothing : EndsStopped [] := ⟨.nil, nofun⟩
    have silent : x.requested .running = none := unheard .running ""
    simp only [unheard.lifecycle_eq run, nothing, silent, true_or]
  · have told : x.requested .running ≠ none := by
      rw [Setting.requested, heard]
      exact nofun
    rw [returns.lifecycle_eq heard, endsStopped_iff, since_shutdown_iff within]
    simp only [told, false_or]

/-- When the shutdown comes first and the daemon waits, the daily task begins after STOPPED. -/
theorem lifecycle_at_once {x : Setting} {r : Registry} (observed : Nat)
    (some_service : r.services ≠ []) (told : x.requested .running ≠ none)
    (own : x.dailyStarted = false) (at_once : x.shutdown = 0) (waits : x.wait ≠ 0) :
    ∃ run, Daemon.run x r observed = .ok run ∧
      run.lifecycle x = [.started, .stopped, .running] := by
  obtain ⟨run, ok, returns⟩ := run_returns x observed some_service
  have within := (tasks_arise r.services x.shutdown).2.1
  obtain ⟨url, heard⟩ := x.unheard_or_heard.resolve_left fun unheard => told (unheard .running "")
  have stop : (tasks r.services x.shutdown).2 = 0 := by omega
  have days : x.days 0 run.finished observed = [0] := by
    have allowed : x.allows run.finished 0 = true := by simp [Setting.allows, waits]
    rw [Setting.days, own, if_neg Bool.false_ne_true, show dailyInstants 0 = [0] by decide]
    simp [allowed]
  refine ⟨run, ok, ?_⟩
  rw [returns.lifecycle_eq heard, stop, days, at_once]
  rfl

/-- A second is enough for the daily task to begin. -/
theorem stopped_is_last_stuck :
    stuckAndTicking.services ≠ [] ∧
      ∃ run, Daemon.run (zoned 1005) stuckAndTicking 0 = .ok run ∧
        EndsStopped (run.lifecycle (zoned 1005)) := by
  have some_service : stuckAndTicking.services ≠ [] := by decide
  obtain ⟨run, ok, ends⟩ := stopped_is_last_iff (zoned 1005) stuckAndTicking 0 some_service
  exact ⟨some_service, run, ok, ends.2 (.inr (.inl (by decide)))⟩

/-- RUNNING is told last when the shutdown comes first. -/
theorem running_told_last :
    ∃ run, Daemon.run (zoned 0) stuckAndTicking 0 = .ok run ∧
      run.lifecycle (zoned 0) = [.started, .stopped, .running] ∧
      ¬ EndsStopped (run.lifecycle (zoned 0)) := by
  obtain ⟨run, ok, told⟩ := lifecycle_at_once (x := zoned 0) (r := stuckAndTicking) 0 (by decide)
    (by decide) rfl rfl (by decide)
  refine ⟨run, ok, told, fun ends => ?_⟩
  rw [told] at ends
  exact absurd (ends.last .running rfl) (by decide)

end ChannelAgent.Daemon
