import ChannelAgent.Proofs.Daemon.Lives

set_option autoImplicit false

namespace ChannelAgent.Daemon

open Supervision

/-- When the task of a service ends if nobody aborts it. -/
def Life.endsAt (l : Life) : ℕ∞ := orNever l.ended

/-- A run of a daemon whose services lead some lives, the last of which ends at `latest`: when it
returns, and that nothing is left behind then. -/
structure EndsInTime (x : Setting) (lives : List Life) (latest : ℕ∞) (run : Run) : Prop where
  prompt : (∀ l ∈ lives, l.endsAt ≤ x.shutdown) → run.finished = x.shutdown
  patient : x.shutdown < latest → (run.finished : ℕ∞) = min ↑(x.shutdown + x.wait) latest
  no_sooner : x.shutdown ≤ run.finished
  no_later : run.finished ≤ x.shutdown + x.wait
  /-- Every run of a service is seen. -/
  starts : run.traces.map (fun t => (t.1, instants Event.isStarting t.2)) =
    lives.map fun l => (l.service, l.stints.map (·.begins))
  /-- No service does anything after the return. -/
  silent : ∀ t ∈ run.traces, ∀ e ∈ t.2, e.1 ≤ run.finished
  /-- A report after it comes from the daily task of somebody else. -/
  reports : ∀ e ∈ run.ledger.reports, run.finished < e.1 →
    x.dailyStarted = true ∧ e ∈ (reported x e.1 .running).reports
  abandoned : ∀ l ∈ lives, run.finished < l.endsAt → run.aborted = true

/-- The days on which RUNNING is reported, up to the return of the daemon or, when somebody else
started the daily task, for as long as it is observed. -/
def Setting.days (x : Setting) (stop finished observed : Nat) : List Nat :=
  if x.dailyStarted then dailyInstants (finished + observed + 1)
  else (dailyInstants stop).filter (x.allows finished)

/-- What the daemon returns, in terms of the tasks of its services. -/
structure Returns (x : Setting) (ts : List Task) (stop observed : Nat) (run : Run) : Prop where
  finished : run.finished = (endSeen? x ts stop).getD x.deadline
  aborted : run.aborted = (endSeen? x ts stop).isNone
  traces : run.traces =
    ts.map fun t => (t.1, t.2.events.filter fun e => x.allows run.finished e.1)
  reports : run.ledger.reports =
    (reported x 0 .started).reports ++
      ((x.days stop run.finished observed).filter (· < x.shutdown)).flatMap
        (fun t => (reported x t .running).reports) ++
      (reported x x.shutdown .stopped).reports ++
      ((x.days stop run.finished observed).filter (x.shutdown ≤ ·)).flatMap
        (fun t => (reported x t .running).reports) ++
      run.traces.flatMap fun t => t.2.flatMap fun e => (serviceLedger x t.1 e).reports

section

variable {x : Setting} {ts : List Task} {lives : List Life} {stop observed : Nat}

theorem mem_dailyInstants (t stop : Nat) :
    t ∈ dailyInstants stop ↔ t = 0 ∨ ∃ k, t = k * Usage.dailyPeriod ∧ t < stop := by
  simp only [dailyInstants, List.mem_cons, List.mem_filter, List.mem_map, List.mem_range,
    Bool.and_eq_true, decide_eq_true_eq]
  constructor
  · rintro (rfl | ⟨⟨k, -, rfl⟩, -, before⟩)
    · exact .inl rfl
    · exact .inr ⟨k, rfl, before⟩
  · rintro (rfl | ⟨k, rfl, before⟩)
    · exact .inl rfl
    · rcases Nat.eq_zero_or_pos (k * Usage.dailyPeriod) with zero | positive
      · exact .inl zero
      · have few : k ≤ stop / Usage.dailyPeriod :=
          (Nat.le_div_iff_mul_le (by decide)).2 (Nat.le_of_lt before)
        exact .inr ⟨⟨k, Nat.lt_succ_of_le few, rfl⟩, positive, before⟩

theorem dailyInstants_increasing (stop : Nat) : (dailyInstants stop).Pairwise (· < ·) := by
  refine List.pairwise_cons.2 ⟨fun t found => ?_, .filter _ (List.pairwise_map.2 ?_)⟩
  · have due := (List.mem_filter.1 found).2
    simp only [Bool.and_eq_true, decide_eq_true_eq] at due
    exact due.1
  · exact List.pairwise_lt_range.imp fun less => Nat.mul_lt_mul_of_pos_right less (by decide)

theorem lt_of_dailyInstants (later : 0 < x.shutdown) (within : stop ≤ x.shutdown) {t : Nat}
    (due : t ∈ dailyInstants stop) : t < x.shutdown := by
  rcases (mem_dailyInstants t stop).1 due with rfl | ⟨k, -, before⟩
  · exact later
  · exact Nat.lt_of_lt_of_le before within

theorem orNever_later (a b : Option Nat) : orNever (later a b) = max (orNever a) (orNever b) := by
  cases a with
  | none => exact (top_sup_eq _).symm
  | some a =>
    cases b with
    | none => exact (sup_top_eq _).symm
    | some b => exact Nat.mono_cast.map_max

theorem le_foldl_later (ts : List Task) (given : Option Nat) :
    orNever given ≤ orNever (ts.foldl (fun e t => later e t.2.ended) given) ∧
      ∀ t ∈ ts, orNever t.2.ended ≤ orNever (ts.foldl (fun e t => later e t.2.ended) given) := by
  induction ts generalizing given with
  | nil => exact ⟨le_refl _, nofun⟩
  | cons t ts ih =>
    obtain ⟨least, others⟩ := ih (later given t.2.ended)
    rw [orNever_later] at least
    rw [List.foldl_cons]
    exact ⟨(le_max_left ..).trans least,
      List.forall_mem_cons.2 ⟨(le_max_right ..).trans least, others⟩⟩

/-- The daemon sees the end of all tasks within the grace period. -/
theorem of_endSeen {t : Nat} (seen : endSeen? x ts stop = some t) :
    ∃ e, allEnded ts = some e ∧ t = max x.shutdown e ∧
      (x.wait = 0 → e < x.shutdown ∧ (x.dailyStarted = true ∨ stop < x.shutdown)) := by
  unfold endSeen? at seen
  split at seen
  · cases seen
  · rename_i e ends
    refine ⟨e, ends, ?_⟩
    split at seen
    · split at seen
      · rename_i both
        obtain rfl := Option.some.inj seen
        simp only [Bool.and_eq_true, Bool.or_eq_true, decide_eq_true_eq] at both
        exact ⟨by omega, fun _ => ⟨both.2, both.1⟩⟩
      · cases seen
    · rename_i patient
      split at seen
      · obtain rfl := Option.some.inj seen
        exact ⟨rfl, fun hasty => absurd hasty patient⟩
      · cases seen

/-- A daemon that has seen the end of all tasks has missed nothing of them. -/
theorem allows_of_endSeen {t : Task} {returned : Nat} (seen : endSeen? x ts stop = some returned)
    (found : t ∈ ts) (history : Spans 0 t.2.events t.2.ended) :
    ∀ e ∈ t.2.events, x.allows returned e.1 = true := by
  intro e happens
  obtain ⟨last, ends, rfl, hasty⟩ := of_endSeen seen
  have all : orNever t.2.ended ≤ orNever (allEnded ts) := (le_foldl_later ts (some 0)).2 t found
  obtain ⟨u, ended, before⟩ : ∃ u, t.2.ended = some u ∧ u ≤ last := by
    rw [ends] at all
    cases ended : t.2.ended with
    | none => simp [ended, orNever] at all
    | some u => exact ⟨u, rfl, by simpa [ended, orNever] using all⟩
  have bound : e.1 ≤ u := history.bound u ended e happens
  unfold Setting.allows
  split
  · rename_i none
    have early := (hasty none).1
    exact decide_eq_true (by omega)
  · exact decide_eq_true (by omega)

/-- Whether the daemon gives up or not, of a history that it has not missed anything of unless it
gives up there remains what the tasks were allowed to do. -/
theorem Setting.remains_eq {α : Type} {gaveUp : Bool} {finished : Nat} {instant : α → Nat}
    {history : List α}
    (whole : gaveUp = false → ∀ e ∈ history, x.allows finished (instant e) = true) :
    x.remains gaveUp finished instant history =
      history.filter fun e => x.allows finished (instant e) := by
  cases gaveUp with
  | true => rfl
  | false => exact (List.filter_eq_self.2 (whole rfl)).symm

theorem dailyReports_eq (within : stop ≤ x.shutdown) :
    dailyReports x stop ((endSeen? x ts stop).getD x.deadline) observed (endSeen? x ts stop).isNone =
      x.days stop ((endSeen? x ts stop).getD x.deadline) observed := by
  unfold dailyReports Setting.days
  split
  · rfl
  · rename_i own
    apply Setting.remains_eq
    intro kept t due
    cases seen : endSeen? x ts stop with
    | none => simp [seen] at kept
    | some returned =>
      obtain ⟨last, -, rfl, hasty⟩ := of_endSeen seen
      rw [Option.getD_some, id_eq]
      unfold Setting.allows
      have day := (mem_dailyInstants t stop).1 due
      split
      · rename_i none
        have early := (hasty none).2.resolve_left own
        exact decide_eq_true (lt_of_dailyInstants (by omega) within due)
      · refine decide_eq_true ?_
        rcases day with rfl | ⟨k, -, before⟩ <;> omega

theorem reports_beforehand (x : Setting) : (beforehand x).reports = [] := by
  unfold beforehand
  split <;> rfl

theorem run_returns (x : Setting) {r : Registry} (observed : Nat) (some_service : r.services ≠ []) :
    ∃ run, Daemon.run x r observed = .ok run ∧
      Returns x (tasks r.services x.shutdown).1 (tasks r.services x.shutdown).2 observed run := by
  have nonempty : r.services.isEmpty = false := by simpa using some_service
  obtain ⟨-, within, -, arise⟩ := tasks_arise r.services x.shutdown
  unfold Daemon.run
  simp only [nonempty, Bool.false_eq_true, ↓reduceIte]
  refine ⟨_, rfl, rfl, rfl, ?_, ?_⟩
  · refine List.map_congr_left fun t found => Prod.ext rfl ?_
    apply Setting.remains_eq
    intro kept
    cases seen : endSeen? x (tasks r.services x.shutdown).1 (tasks r.services x.shutdown).2 with
    | none => simp [seen] at kept
    | some returned => exact allows_of_endSeen seen found (arise t found).spans
  · simp [dailyReports_eq within, reports_beforehand, List.flatMap_map, List.flatMap_append,
      Usage.Ledger.ofEntries, List.flatMap_assoc]

theorem Returns.services {services : List Service} {run : Run}
    (returns : Returns x (tasks services x.shutdown).1 stop observed run) :
    run.traces.map (·.1) = services := by
  rw [returns.traces, List.map_map]
  exact (tasks_arise services x.shutdown).1

/-- The ends that the tasks know, and an instant given before, have a latest one. -/
theorem isGreatest_later {shutdown : Nat}
    (told : List.Forall₂ (Tells shutdown stop) ts lives) (given : Option Nat) :
    IsGreatest (insert (orNever given) {e | ∃ l ∈ lives, l.endsAt = e})
      (orNever (ts.foldl (fun e t => later e t.2.ended) given)) := by
  induction told generalizing given with
  | nil => exact ⟨.inl rfl, by simp [upperBounds]⟩
  | @cons t l ts lives here _ ih =>
    obtain ⟨found, upper⟩ := ih (later given t.2.ended)
    rw [List.foldl_cons, here.ended]
    rw [orNever_later, here.ended] at found upper
    have most : max (orNever given) l.endsAt ≤ _ := upper (.inl rfl)
    constructor
    · rcases found with first | ⟨l', found', same⟩
      · rcases max_choice (orNever given) l.endsAt with one | one
        · exact .inl (first.trans one)
        · exact .inr ⟨l, List.mem_cons_self, (first.trans one).symm⟩
      · exact .inr ⟨l', List.mem_cons_of_mem l found', same⟩
    · rintro e (rfl | ⟨l', found', rfl⟩)
      · exact (le_max_left ..).trans most
      · rcases List.mem_cons.1 found' with rfl | found'
        · exact (le_max_right ..).trans most
        · exact upper (.inr ⟨l', found', rfl⟩)

/-- The instant at which all tasks have ended is that of the last service. -/
theorem isGreatest_allEnded {shutdown : Nat}
    (told : List.Forall₂ (Tells shutdown stop) ts lives) (some_life : lives ≠ []) :
    IsGreatest {e | ∃ l ∈ lives, l.endsAt = e} (orNever (allEnded ts)) := by
  obtain ⟨found, upper⟩ := isGreatest_later told (some 0)
  refine ⟨?_, fun e known => upper (.inr known)⟩
  rcases found with zero | known
  · -- all end at instant zero then
    obtain ⟨l, found⟩ := List.exists_mem_of_ne_nil lives some_life
    have least : l.endsAt ≤ orNever (allEnded ts) := upper (.inr ⟨l, found, rfl⟩)
    refine ⟨l, found, le_antisymm least ?_⟩
    rw [show orNever (allEnded ts) = 0 from zero]
    exact bot_le
  · exact known

/-- The daemon returns when it sees that all tasks have ended, or at the end of the grace period. -/
theorem getD_endSeen (x : Setting) (ts : List Task) (stop : Nat) :
    (((endSeen? x ts stop).getD x.deadline : Nat) : ℕ∞) =
      max ↑x.shutdown (min ↑(x.shutdown + x.wait) (orNever (allEnded ts))) := by
  unfold endSeen? Setting.deadline
  cases allEnded ts with
  | none => simp [orNever]
  | some e =>
    have here : orNever (some e) = (e : ℕ∞) := rfl
    rw [here, ← Nat.mono_cast.map_min, ← Nat.mono_cast.map_max, Nat.cast_inj]
    dsimp only
    split
    · split <;> simp only [Option.getD_some, Option.getD_none] <;> omega
    · split <;> simp only [Option.getD_some, Option.getD_none] <;> omega

theorem Returns.finished_eq {run : Run} (returns : Returns x ts stop observed run) :
    (run.finished : ℕ∞) =
      max ↑x.shutdown (min ↑(x.shutdown + x.wait) (orNever (allEnded ts))) := by
  rw [returns.finished, getD_endSeen]

theorem Returns.no_sooner {run : Run} (returns : Returns x ts stop observed run) :
    x.shutdown ≤ run.finished := by
  rw [← Nat.cast_le (α := ℕ∞), returns.finished_eq]
  exact le_max_left ..

theorem Returns.no_later {run : Run} (returns : Returns x ts stop observed run) :
    run.finished ≤ x.deadline := by
  rw [← Nat.cast_le (α := ℕ∞), returns.finished_eq]
  exact max_le (Nat.cast_le.2 (Nat.le_add_right ..)) (min_le_left ..)

/-- It has not given up when all tasks have ended. -/
theorem ended_of_endSeen {t : Nat} (seen : endSeen? x ts stop = some t) :
    orNever (allEnded ts) ≤ t := by
  obtain ⟨last, ends, rfl, -⟩ := of_endSeen seen
  rw [ends]
  exact Nat.cast_le.2 (Nat.le_max_right ..)

theorem Setting.le_of_allows {finished t : Nat} (no_sooner : x.shutdown ≤ finished)
    (allowed : x.allows finished t = true) : t ≤ finished := by
  unfold allows at allowed
  split at allowed
  · exact Nat.le_trans (Nat.le_of_lt (by simpa using allowed)) no_sooner
  · simpa using allowed

theorem Setting.allows_of_lt {finished t : Nat} (no_sooner : x.shutdown ≤ finished)
    (early : t < x.shutdown) : x.allows finished t = true := by
  unfold allows
  split
  · simpa using early
  · simpa using Nat.le_trans (Nat.le_of_lt early) no_sooner

theorem instant_of_reported {now : Nat} {status : Usage.Status} {e : Nat × Usage.Request}
    (found : e ∈ (reported x now status).reports) : e.1 = now := by
  rw [reported, Usage.Ledger.reports_ofOutcome, Option.mem_toList,
    Option.map_eq_some_iff] at found
  obtain ⟨_, _, rfl⟩ := found
  rfl

theorem instant_of_serviceLedger {s : Service} {event : Nat × Event} {e : Nat × Usage.Request}
    (found : e ∈ (serviceLedger x s event).reports) : e.1 = event.1 := by
  unfold serviceLedger Supervision.ledger at found
  split at found
  · simp only [Usage.Ledger.reports_append, Usage.Ledger.reports_ofEntries, List.nil_append,
      Usage.Ledger.reports_ofOutcome, Option.mem_toList, Option.map_eq_some_iff] at found
    obtain ⟨_, _, rfl⟩ := found
    rfl
  · simp at found

theorem starts_told {shutdown : Nat} {allowed : Nat → Bool}
    (told : List.Forall₂ (Tells shutdown stop) ts lives)
    (early : ∀ t, t < shutdown → allowed t = true) :
    ts.map (fun t => (t.1, instants Event.isStarting (t.2.events.filter fun e => allowed e.1))) =
      lives.map fun l => (l.service, l.stints.map (·.begins)) := by
  induction told with
  | nil => rfl
  | @cons t l ts lives here _ ih =>
    have all : (l.stints.map (·.begins)).filter allowed = l.stints.map (·.begins) := by
      refine List.filter_eq_self.2 fun begins found => ?_
      obtain ⟨st, found', rfl⟩ := List.mem_map.1 found
      exact early _ (here.led.begins st found')
    rw [List.map_cons, List.map_cons, ih, instants_filter, here.starts, here.service, all]

/-- Reports up to the return, and later ones by a daily task that is not the daemon's own. -/
theorem Returns.reports_late {run : Run} (returns : Returns x ts stop observed run)
    (silent : ∀ t ∈ run.traces, ∀ e ∈ t.2, e.1 ≤ run.finished) :
    ∀ e ∈ run.ledger.reports, run.finished < e.1 →
      x.dailyStarted = true ∧ e ∈ (reported x e.1 .running).reports := by
  intro e found late
  have no_sooner := returns.no_sooner
  have at_instant {t : Nat} {status : Usage.Status} (early : t ≤ run.finished)
      (found : e ∈ (reported x t status).reports) : False := by
    have same := instant_of_reported found
    omega
  have daily {t : Nat} (due : t ∈ x.days stop run.finished observed)
      (found : e ∈ (reported x t .running).reports) :
      x.dailyStarted = true ∧ e ∈ (reported x e.1 .running).reports := by
    rw [instant_of_reported found]
    cases own : x.dailyStarted with
    | true => exact ⟨rfl, found⟩
    | false =>
      rw [Setting.days, own] at due
      have allowed := (List.mem_filter.1 due).2
      exact absurd found fun found => at_instant (Setting.le_of_allows no_sooner allowed) found
  rw [returns.reports] at found
  simp only [List.mem_append, List.mem_flatMap, List.mem_filter] at found
  rcases found with (((found | ⟨t, ⟨due, -⟩, found⟩) | found) | ⟨t, ⟨due, -⟩, found⟩) |
    ⟨t, traced, event, happens, found⟩
  · exact (at_instant (Nat.zero_le _) found).elim
  · exact daily due found
  · exact (at_instant no_sooner found).elim
  · exact daily due found
  · have same := instant_of_serviceLedger found
    have before := silent t traced event happens
    omega

end

/-- A daemon returns at its shutdown if the tasks of all services have ended by then, and otherwise
when the last of them ends, or at the end of the grace period if that is sooner. No run and no call
of the work of a service begins after the shutdown, and nothing of a service is left after the
return. The clock counts whole milliseconds, so the grace period is rounded up to them. -/
theorem returns_within_grace (x : Setting) (r : Registry) (observed : Nat)
    (some_service : r.services ≠ []) (paced : ∀ s ∈ r.services, s.Paced) :
    ∃ run lives stop latest, Daemon.run x r observed = .ok run ∧
      Lived r.services x.shutdown stop lives ∧
      IsGreatest {e | ∃ l ∈ lives, l.endsAt = e} latest ∧ EndsInTime x lives latest run ∧
      (x.grace.seconds < 9223372036854775808 → x.grace.toNanos ≤ x.wait * 1000000 ∧
        x.wait * 1000000 < x.grace.toNanos + 1000000) := by
  obtain ⟨run, ok, returns⟩ := run_returns x observed some_service
  obtain ⟨lives, lived, told⟩ := tasks_tell x.shutdown paced
  have some_life : lives ≠ [] := by
    rintro rfl
    exact some_service lived.covers.symm
  have greatest := isGreatest_allEnded told some_life
  have finished := returns.finished_eq
  have no_sooner := returns.no_sooner
  have silent : ∀ t ∈ run.traces, ∀ e ∈ t.2, e.1 ≤ run.finished := by
    rw [returns.traces]
    intro t found e happens
    obtain ⟨t', -, rfl⟩ := List.mem_map.1 found
    exact Setting.le_of_allows no_sooner (List.mem_filter.1 happens).2
  refine ⟨run, lives, _, _, ok, lived, greatest, ?_, Duration.pauseMillis_rounds_up⟩
  constructor
  case prompt =>
    intro by_then
    obtain ⟨l, found, last⟩ := greatest.1
    have early : orNever (allEnded _) ≤ ↑x.shutdown := last ▸ by_then l found
    rw [← Nat.cast_inj (R := ℕ∞), finished]
    exact max_eq_left ((min_le_right ..).trans early)
  case patient =>
    intro late
    rw [finished]
    refine max_eq_right (le_min ?_ late.le)
    exact Nat.cast_le.2 (Nat.le_add_right ..)
  case no_sooner => exact no_sooner
  case no_later => exact returns.no_later
  case starts =>
    rw [returns.traces, List.map_map]
    exact starts_told told fun t early => Setting.allows_of_lt no_sooner early
  case silent => exact silent
  case reports => exact returns.reports_late silent
  case abandoned =>
    intro l found late
    rw [returns.aborted]
    cases seen : endSeen? x (tasks r.services x.shutdown).1 (tasks r.services x.shutdown).2 with
    | none => rfl
    | some t =>
      have ended : l.endsAt ≤ t := (greatest.2 ⟨l, found, rfl⟩).trans (ended_of_endSeen seen)
      rw [returns.finished, seen] at late
      exact absurd late (not_lt.2 ended)

/-- It sleeps for an hour and does not mind the stop signal. -/
def stuck : Service where
  name := "stuck"
  code := 53
  interval := none
  minimum := .zero
  work := Service.scripted fun _ => { sleeps := 3600000, heedsStop := false }

/-- It does next to nothing, once in five seconds. -/
def ticking : Service where
  name := "ticking"
  code := 52
  interval := some (.ofSeconds 5)
  minimum := .zero
  work := Service.scripted fun _ => {}

/-- It gives the stop signal before it has run for five seconds. -/
def quitter : Service where
  name := "quitter"
  code := 56
  interval := none
  minimum := .zero
  work := Service.scripted fun _ => { sleeps := 4900, finish := .givesStop }

def stuckAndTicking : Registry := ⟨[stuck, ticking], by decide⟩

/-- A second after the shutdown the daemon gives up. -/
theorem returns_within_grace_stuck :
    let x : Setting :=
      { integration := {}, cloud := {}, logger := .new [], delivery := .sure, dailyStarted := false
        grace := .ofSeconds 1, shutdown := 1005 }
    stuckAndTicking.services ≠ [] ∧ (∀ s ∈ stuckAndTicking.services, s.Paced) ∧
      ∃ run, Daemon.run x stuckAndTicking 0 = .ok run ∧ run.finished = 2005 ∧
        ∀ t ∈ run.traces, ∀ e ∈ t.2, e.1 ≤ 2005 := by
  intro x
  have some_service : stuckAndTicking.services ≠ [] := by decide
  have paced : ∀ s ∈ stuckAndTicking.services, s.Paced := by
    have stuck_paced : stuck.Paced := nofun
    have ticking_paced : ticking.Paced := fun d every => Option.some.inj every ▸ by decide
    simpa [stuckAndTicking] using ⟨stuck_paced, ticking_paced⟩
  obtain ⟨run, _, _, _, ok, -, -, ends, -⟩ :=
    returns_within_grace x stuckAndTicking 0 some_service paced
  have finished : (Daemon.run x stuckAndTicking 0).map (·.finished) = .ok 2005 := by decide +kernel
  rw [ok] at finished
  obtain finished : run.finished = 2005 := Except.ok.inj finished
  exact ⟨some_service, paced, run, ok, finished, finished ▸ ends.silent⟩

end ChannelAgent.Daemon
