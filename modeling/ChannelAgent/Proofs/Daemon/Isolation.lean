import ChannelAgent.Proofs.Daemon.Lifecycle

set_option autoImplicit false

namespace ChannelAgent.Daemon

open Supervision

/-- The task of a service in a daemon whose stop signal fires at `stop`. A service that gives the
signal itself knows of no other. -/
def taskUnder (shutdown stop : Nat) (s : Service) : Task :=
  let alone := superviseFrom ⟨some shutdown⟩ s
  if givenBefore shutdown alone = some stop then alone else superviseFrom ⟨some stop⟩ s

/-- What a service does under a stop signal at `stop`, up to the end of the grace period. -/
def Setting.conduct (x : Setting) (stop : Nat) (s : Service) : List (Nat × Supervision.Event) :=
  (taskUnder x.shutdown stop s).2.events.filter fun e => x.allows x.deadline e.1

/-- The reports for the failures of a service. -/
def Setting.errors (x : Setting) (s : Service) (events : List (Nat × Supervision.Event)) :
    List (Nat × Usage.Request) :=
  (instants Event.isFailure events).flatMap fun at_ =>
    ((report? x.reporter x.delivery s).map fun r => (at_, r)).toList

/-- No service but this one gives the stop signal in its first turn, when the services begin. -/
def Setting.Orderly (x : Setting) (r : Registry) (a : Service) : Prop :=
  ∀ s ∈ r.services, s.name ≠ a.name →
    givenBefore x.shutdown (superviseFrom ⟨some x.shutdown⟩ s) ≠ some 0

/-- A run shows these events of a service and no others. Its failures are reported, and every other
report is of the lifecycle of the daemon or for a failure of another service. -/
structure Shows (x : Setting) (run : Run) (a : Service) (events : List (Nat × Supervision.Event)) :
    Prop where
  traced : ∀ told, (a, told) ∈ run.traces ↔ told = events
  reported : ∃ own others,
    run.ledger.reports.Perm (own ++ x.errors a events ++ others) ∧
      (∀ e ∈ own, ∃ status, status ≠ .error ∧ e ∈ (reported x e.1 status).reports) ∧
      ∀ e ∈ others, ∃ t ∈ run.traces, t.1.name ≠ a.name ∧ e ∈ x.errors t.1 t.2

section

variable {x : Setting} {r : Registry} {services : List Service} {ts : List Task} {own t : Task}
  {a : Service} {shutdown stop observed : Nat} {run : Run}

/-- The task that gives the signal in its first turn is not disturbed by those that do not. -/
theorem mem_firstTurns (gives : own.2.signal.firesAt = some 0)
    (others : ∀ t ∈ ts, t = own ∨ t.2.signal.firesAt ≠ some 0) (found : own ∈ ts) :
    own ∈ firstTurns false ts := by
  induction ts with
  | nil => cases found
  | cons t ts ih =>
    obtain ⟨here, others⟩ := List.forall_mem_cons.1 others
    by_cases same : t = own
    · subst same
      rw [firstTurns, if_pos gives]
      exact List.mem_cons_self
    · have quiet : t.2.signal.firesAt ≠ some 0 := here.resolve_left same
      have behind : own ∈ ts := (List.mem_cons.1 found).resolve_left fun h => same h.symm
      have later := ih others behind
      rw [firstTurns, if_neg quiet]
      split
      · exact List.mem_cons_of_mem _ later
      · exact List.mem_cons_of_mem _ later

/-- Of the other services, only the instant of the signal matters for the task of a service. -/
theorem mem_tasks (found : a ∈ services)
    (orderly : ∀ s ∈ services, s ≠ a →
      givenBefore shutdown (superviseFrom ⟨some shutdown⟩ s) ≠ some 0) :
    taskUnder shutdown (tasks services shutdown).2 a ∈ (tasks services shutdown).1 := by
  have here : superviseFrom ⟨some shutdown⟩ a ∈ services.map (superviseFrom ⟨some shutdown⟩) :=
    List.mem_map_of_mem found
  have others : ∀ t ∈ services.map (superviseFrom ⟨some shutdown⟩),
      t = superviseFrom ⟨some shutdown⟩ a ∨ givenBefore shutdown t ≠ some 0 := by
    intro t told
    obtain ⟨s, registered, rfl⟩ := List.mem_map.1 told
    by_cases same : s = a
    · exact .inl (same ▸ rfl)
    · exact .inr (orderly s registered same)
  unfold tasks
  dsimp only
  split
  · rw [taskUnder, ite_self]
    exact here
  · rename_i given
    -- nobody else gives the signal at instant zero
    obtain ⟨t, told, gives⟩ := exists_given given
    obtain rfl := (others t told).resolve_right fun silent => silent gives
    obtain ⟨fires, running⟩ := Option.filter_eq_some_iff.1 gives
    rw [taskUnder, if_pos gives]
    apply mem_firstTurns fires _ here
    intro t told
    apply (others t told).imp_right
    intro silent fires'
    exact silent (Option.filter_eq_some_iff.2 ⟨fires', running⟩)
  · rename_i c _ given
    exact List.mem_map.2 ⟨_, here, rfl⟩

theorem service_taskUnder (shutdown stop : Nat) (a : Service) : (taskUnder shutdown stop a).1 = a := by
  unfold taskUnder
  dsimp only
  split <;> rfl

theorem arises_taskUnder (shutdown stop : Nat) (a : Service) :
    Arises shutdown stop (taskUnder shutdown stop a) := by
  unfold taskUnder
  dsimp only
  split
  · exact .supervised a shutdown (.inr rfl)
  · exact .supervised a stop (.inl rfl)

/-- The daemon waits for a task until its end or until the end of the grace period. So it returns
too late to cut off anything that the grace period leaves. -/
theorem Returns.allows_eq (returns : Returns x ts stop observed run) (found : t ∈ ts)
    (history : Spans 0 t.2.events t.2.ended) :
    ∀ e ∈ t.2.events, x.allows run.finished e.1 = x.allows x.deadline e.1 := by
  intro e happens
  have finished := returns.finished_eq
  have before : (e.1 : ℕ∞) ≤ orNever (allEnded ts) := by
    have all : orNever t.2.ended ≤ orNever (allEnded ts) := (le_foldl_later ts (some 0)).2 t found
    cases ended : t.2.ended with
    | none =>
      rw [ended] at all
      exact le_top.trans all
    | some u =>
      rw [ended] at all
      have bound : e.1 ≤ u := history.bound u ended e happens
      exact (Nat.cast_le.2 bound).trans all
  have no_later := returns.no_later
  have reaches : e.1 ≤ x.deadline → e.1 ≤ run.finished := by
    intro early
    rw [← Nat.cast_le (α := ℕ∞), finished]
    exact le_max_of_le_right (le_min (Nat.cast_le.2 early) before)
  unfold Setting.allows
  split
  · rfl
  · have same : e.1 ≤ run.finished ↔ e.1 ≤ x.deadline := by
      constructor
      · intro early
        exact Nat.le_trans early no_later
      · exact reaches
    exact decide_eq_decide.2 same

/-- The reports of a run apart from those for the failures of its services. -/
theorem Returns.reports_apart (returns : Returns x ts stop observed run) :
    ∃ own, run.ledger.reports = own ++ run.traces.flatMap (fun t => x.errors t.1 t.2) ∧
      ∀ e ∈ own, ∃ status, status ≠ .error ∧ e ∈ (reported x e.1 status).reports := by
  have told (t : Service × List (Nat × Supervision.Event)) :
      t.2.flatMap (fun e => (serviceLedger x t.1 e).reports) = x.errors t.1 t.2 :=
    reports_ledger x.reporter x.delivery t.1 t.2
  have reports := returns.reports
  simp only [told] at reports
  refine ⟨_, reports, ?_⟩
  have lifecycle (status : Usage.Status) (plain : status ≠ .error) {now : Nat}
      {e : Nat × Usage.Request} (found : e ∈ (reported x now status).reports) :
      ∃ status, status ≠ .error ∧ e ∈ (reported x e.1 status).reports :=
    ⟨status, plain, (instant_of_reported found).symm ▸ found⟩
  intro e found
  simp only [List.mem_append, List.mem_flatMap] at found
  rcases found with ((found | ⟨t, -, found⟩) | found) | ⟨t, -, found⟩
  · exact lifecycle .started nofun found
  · exact lifecycle .running nofun found
  · exact lifecycle .stopped nofun found
  · exact lifecycle .running nofun found

/-- The reports of a run are the daemon's own, those for the failures of one service and those for
the failures of the others. -/
theorem Returns.reports_parted {events : List (Nat × Supervision.Event)}
    (returns : Returns x ts stop observed run) (distinct : (run.traces.map (·.1.name)).Nodup)
    (traced : (a, events) ∈ run.traces) :
    ∃ own others,
      run.ledger.reports.Perm (own ++ x.errors a events ++ others) ∧
        (∀ e ∈ own, ∃ status, status ≠ .error ∧ e ∈ (reported x e.1 status).reports) ∧
        ∀ e ∈ others, ∃ t ∈ run.traces, t.1.name ≠ a.name ∧ e ∈ x.errors t.1 t.2 := by
  obtain ⟨own, reports, lifecycle⟩ := returns.reports_apart
  obtain ⟨before, after, parts⟩ := List.append_of_mem traced
  have others : ∀ t ∈ before ++ after, t ∈ run.traces ∧ t.1.name ≠ a.name := by
    intro t told
    rw [parts, List.map_append, List.map_cons, List.nodup_middle, ← List.map_append] at distinct
    have apart := (List.nodup_cons.1 distinct).1
    constructor
    · rw [parts]
      exact List.perm_middle.mem_iff.2 (List.mem_cons_of_mem _ told)
    · intro same
      exact apart (same ▸ List.mem_map_of_mem told)
  refine ⟨own, (before ++ after).flatMap fun t => x.errors t.1 t.2, ?_, lifecycle, ?_⟩
  · rw [reports, parts, List.flatMap_append, List.flatMap_cons, List.flatMap_append,
      List.append_assoc]
    apply List.Perm.append_left
    exact List.perm_append_comm_assoc ..
  · intro e found
    obtain ⟨t, told, found⟩ := List.mem_flatMap.1 found
    exact ⟨t, (others t told).1, (others t told).2, found⟩

/-- A daemon shows of a service what it does under the stop signal, up to the end of the grace
period. -/
theorem shows_conduct (x : Setting) (observed : Nat) (found : a ∈ r.services)
    (orderly : x.Orderly r a) :
    ∃ run, Daemon.run x r observed = .ok run ∧ Shows x run a (x.conduct (x.stopsAt r) a) := by
  obtain ⟨run, ok, returns⟩ := run_returns x observed (List.ne_nil_of_mem found)
  have names : (tasks r.services x.shutdown).1.map (·.1) = r.services :=
    (tasks_arise r.services x.shutdown).1
  have here : taskUnder x.shutdown (x.stopsAt r) a ∈ (tasks r.services x.shutdown).1 := by
    apply mem_tasks found
    intro s registered other
    apply orderly s registered
    intro same
    exact other (List.inj_on_of_nodup_map r.distinct registered found same)
  have shown : (taskUnder x.shutdown (x.stopsAt r) a).2.events.filter
      (fun e => x.allows run.finished e.1) = x.conduct (x.stopsAt r) a :=
    List.filter_congr (returns.allows_eq here (arises_taskUnder ..).spans)
  have distinct : (run.traces.map (·.1.name)).Nodup := by
    have all := r.distinct
    rw [← names, List.map_map] at all
    rw [returns.traces, List.map_map]
    exact all
  have traced : (a, x.conduct (x.stopsAt r) a) ∈ run.traces := by
    rw [returns.traces]
    exact List.mem_map.2 ⟨_, here, Prod.ext (service_taskUnder ..) shown⟩
  refine ⟨run, ok, ?_, returns.reports_parted distinct traced⟩
  intro told
  constructor
  · intro other
    exact congrArg Prod.snd (List.inj_on_of_nodup_map distinct other traced rfl)
  · rintro rfl
    exact traced

/-- The runs and the failures of a service under a stop signal that fires by the shutdown. -/
theorem conduct_tells (x : Setting) (within : stop ≤ x.shutdown) (paced : a.Paced) :
    ∃ l : Life, l.service = a ∧ l.Led x.shutdown stop ∧
      instants Event.isStarting (x.conduct stop a) = l.stints.map (·.begins) ∧
      instants Event.isFailure (x.conduct stop a) = l.failures.filter (x.allows x.deadline) := by
  have arises := arises_taskUnder x.shutdown stop a
  obtain ⟨l, tells⟩ := arises.tells within ((service_taskUnder ..).symm ▸ paced)
  refine ⟨l, tells.service.symm.trans (service_taskUnder ..), tells.led, ?_, ?_⟩
  · rw [Setting.conduct, instants_filter, tells.starts]
    apply List.filter_eq_self.2
    intro begins found
    obtain ⟨st, told, rfl⟩ := List.mem_map.1 found
    exact Setting.allows_of_lt (Nat.le_add_right ..) (tells.led.begins st told)
  · rw [Setting.conduct, instants_filter, tells.failures]

/-- Among services that leave the stop signal alone, each does what it does by itself until the
shutdown. -/
theorem shows_conduct_of_leaves (x : Setting) (observed : Nat) (found : a ∈ r.services)
    (leaves : ∀ s ∈ r.services, s.LeavesSignal) :
    ∃ run, Daemon.run x r observed = .ok run ∧ Shows x run a (x.conduct x.shutdown a) := by
  have stops : x.stopsAt r = x.shutdown := (tasks_arise r.services x.shutdown).2.2.1 leaves
  have orderly : x.Orderly r a := by
    intro s registered _ gives
    rw [givenBefore_of_leaves (leaves s registered)] at gives
    cases gives
  rw [← stops]
  exact shows_conduct x observed found orderly

end

/-- A service in two daemons with the same shutdown and grace period, whose stop signals fire at the
same instant, be it the shutdown or an earlier one at which a service gives the signal. Whatever
their other services do, the two daemons show the same events of it at the same instants: its runs
and the calls of its work begin and end alike. Its failures are reported at the same instants, and
in the same words when the daemons report for the same agent. -/
theorem undisturbed_by_neighbours (x y : Setting) (r r' : Registry) (a : Service)
    (observed observed' : Nat) (shutdown : x.shutdown = y.shutdown) (grace : x.grace = y.grace)
    (signal : x.stopsAt r = y.stopsAt r') (here : a ∈ r.services) (there : a ∈ r'.services)
    (paced : a.Paced) (orderly : x.Orderly r a) (orderly' : y.Orderly r' a) :
    ∃ run run' events, ∃ l : Life,
      Daemon.run x r observed = .ok run ∧ Daemon.run y r' observed' = .ok run' ∧
      Shows x run a events ∧ Shows y run' a events ∧
      l.service = a ∧ l.Led x.shutdown (x.stopsAt r) ∧
      instants Event.isStarting events = l.stints.map (·.begins) ∧
      instants Event.isFailure events = l.failures.filter (x.allows x.deadline) ∧
      (report? x.reporter x.delivery a = report? y.reporter y.delivery a →
        x.errors a events = y.errors a events) := by
  obtain ⟨run, ok, shows_here⟩ := shows_conduct x observed here orderly
  obtain ⟨run', ok', shows_there⟩ := shows_conduct y observed' there orderly'
  have within : x.stopsAt r ≤ x.shutdown := (tasks_arise r.services x.shutdown).2.1
  obtain ⟨l, service, led, starts, failures⟩ := conduct_tells x within paced
  have same : y.conduct (y.stopsAt r') a = x.conduct (x.stopsAt r) a := by
    unfold Setting.conduct Setting.allows Setting.deadline Setting.wait
    rw [shutdown, grace, signal]
  rw [same] at shows_there
  refine ⟨run, run', _, l, ok, ok', shows_here, shows_there, service, led, starts, failures, ?_⟩
  intro alike
  rw [Setting.errors, Setting.errors, alike]

/-- One service panics twice beside a service that never ends, and beside others that tick and
linger; in both daemons a third one gives the stop signal before it runs again. -/
theorem undisturbed_by_neighbours_flaky :
    let x := zoned 18000
    let r : Registry := ⟨[quitter, stuck, flaky], by decide⟩
    let r' : Registry := ⟨[flaky, ticking, quitter, belated], by decide⟩
    x.stopsAt r = x.stopsAt r' ∧ flaky ∈ r.services ∧ flaky ∈ r'.services ∧ flaky.Paced ∧
      x.Orderly r flaky ∧ x.Orderly r' flaky ∧
      ∃ run run' events, Daemon.run x r 0 = .ok run ∧ Daemon.run x r' 0 = .ok run' ∧
        Shows x run flaky events ∧ Shows x run' flaky events ∧
        instants Event.isStarting events = [0, 2100] ∧
        instants Event.isFailure events = [100, 2200] := by
  intro x r r'
  have signal : x.stopsAt r = x.stopsAt r' := by decide +kernel
  have here : flaky ∈ r.services := by simp [r]
  have there : flaky ∈ r'.services := by simp [r']
  have paced : flaky.Paced := nofun
  have orderly : x.Orderly r flaky := by
    unfold Setting.Orderly
    decide +kernel
  have orderly' : x.Orderly r' flaky := by
    unfold Setting.Orderly
    decide +kernel
  obtain ⟨run, run', events, _, ok, ok', shown, shown', -⟩ :=
    undisturbed_by_neighbours x x r r' flaky 0 0 rfl rfl signal here there paced orderly
      orderly'
  let told (t : Service × List (Nat × Supervision.Event)) :=
    (instants Event.isStarting t.2, instants Event.isFailure t.2)
  have seen : (Daemon.run x r 0).map (fun run =>
      (run.traces.filter (·.1.name = "flaky")).map told) = .ok [([0, 2100], [100, 2200])] := by
    decide +kernel
  rw [ok] at seen
  have mine : (flaky, events) ∈ run.traces.filter (·.1.name = "flaky") :=
    List.mem_filter.2 ⟨(shown.traced events).2 rfl, decide_eq_true rfl⟩
  have among : told (flaky, events) ∈ [([0, 2100], [100, 2200])] :=
    Except.ok.inj seen ▸ List.mem_map_of_mem mine
  obtain ⟨starts, failures⟩ := Prod.mk.inj (List.mem_singleton.1 among)
  exact ⟨signal, here, there, paced, orderly, orderly', run, run', events, ok, ok', shown,
    shown', starts, failures⟩

def callBegins : Supervision.Event → Bool
  | .running (.callStarted _) => true
  | _ => false

/-- The instants at which the calls of the work of a service begin. -/
def Run.callsOf (run : Run) (name : String) : List Nat :=
  (run.traces.filter (·.1.name = name)).flatMap fun t => instants callBegins t.2

/-- A service that gives the stop signal stops the others, long before the shutdown. -/
theorem stopped_by_neighbour :
    let r : Registry := ⟨[ticking], by decide⟩
    let r' : Registry := ⟨[ticking, quitter], by decide⟩
    (Daemon.run (zoned 18000) r 0).map (Run.callsOf · "ticking") = .ok [5000, 10000, 15000] ∧
      (Daemon.run (zoned 18000) r' 0).map (Run.callsOf · "ticking") = .ok [] := by
  decide +kernel

end ChannelAgent.Daemon
