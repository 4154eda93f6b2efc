import ChannelAgent.Proofs.Daemon.Shutdown
import ChannelAgent.Proofs.Usage.Daily

set_option autoImplicit false

namespace ChannelAgent

namespace Usage

/-- A use that neither sets properties nor changes how reports are taken. -/
def Use.Plain : Use → Prop
  | .logQuietly .. | .daily _ | .fire _ | .pass _ => True
  | _ => False

/-- Gives way to other tasks for a while, if that takes any time. -/
def passing (ms : Nat) : List Use := if ms = 0 then [] else [.pass ms]

namespace Account

section

variable {a : Account} {u : Use} {o : Outcome} {now first signal : Nat} {fired : Option Nat}

/-- RUNNING comes to this at the desk, and so it did whenever the task performed it. -/
structure Alike (a : Account) (o : Outcome) : Prop where
  running : a.shared.desk.running.2 = o
  performed : ∀ p ∈ a.performed, p.2 = o

theorem Alike.add (alike : a.Alike o) (plain : u.Plain) : (a.add u).Alike o := by
  have kept (silent : a.shared.performances u = []) : ∀ p ∈ (a.add u).performed, p.2 = o := by
    rw [Account.add, silent, List.append_nil]
    exact alike.performed
  cases u with
  | logQuietly status value =>
    refine ⟨?_, kept rfl⟩
    rw [← alike.running]
    exact running_congr (outcome_noteCall a.shared.desk.logger status a.shared.desk.now) rfl
  | daily signal =>
    refine ⟨?_, kept rfl⟩
    rw [← alike.running]
    by_cases new : a.shared.desk.daily = .notStarted
    · rw [Account.add, Shared.use_daily_first new]
      rfl
    · rw [Account.add, Shared.use_daily_again new]
  | fire signal => exact ⟨alike.running, kept rfl⟩
  | pass ms =>
    refine ⟨(running_advance a.shared.desk ms).trans alike.running, fun p found => ?_⟩
    rcases List.mem_append.1 found with before | here
    · exact alike.performed p before
    · exact (alike_performsIn a.shared.desk ms p here).trans alike.running
  | _ => cases plain

theorem Alike.foldl (alike : a.Alike o) {uses : List Use} (plain : ∀ u ∈ uses, u.Plain) :
    (uses.foldl Account.add a).Alike o := by
  induction uses generalizing a with
  | nil => exact alike
  | cons u uses ih =>
    obtain ⟨here, others⟩ := List.forall_mem_cons.1 plain
    exact ih (alike.add here) others

/-- The task that was started at `first`, at an instant. -/
structure Underway (a : Account) (now : Nat) (fired : Option Nat) (first signal : Nat) : Prop
    extends a.Going now fired first signal where
  time : a.shared.desk.now = now
  by_now : ∀ c, fired = some c → c ≤ now

theorem Underway.add (underway : a.Underway now fired first signal) (u : Use) :
    (a.add u).Underway (now + u.lasts)
      (fired.or (if u.fires? = some signal then some now else none)) first signal where
  toGoing := underway.toGoing.use underway.time underway.by_now u
  time := (now_use a.shared u).trans (congrArg (· + u.lasts) underway.time)
  by_now := by
    intro c fires
    rcases Option.or_eq_some_iff.1 fires with before | ⟨-, here⟩
    · exact Nat.le_trans (underway.by_now c before) (Nat.le_add_right ..)
    · split at here
      · obtain rfl := Option.some.inj here
        exact Nat.le_add_right ..
      · cases here

/-- The first call starts the task. -/
theorem Idle.underway (idle : a.Idle) (quiet : a.shared.fired = []) (time : a.shared.desk.now = 0)
    (signal : Nat) : (a.add (.daily signal)).Underway 0 none 0 signal where
  toGoing := idle.begins (by simp [quiet])
  time := (now_use a.shared (.daily signal)).trans time
  by_now := nofun

/-- A task has had a turn when time has passed since it was started. -/
theorem Underway.begun_of_lt (underway : a.Underway now fired first signal) (later : first < now) :
    a.shared.desk.daily ≠ .spawned := by
  intro spawned
  have phase := underway.phase
  generalize a.performed.map (·.1) = done at phase
  rw [spawned] at phase
  cases phase
  omega

theorem Underway.spared (underway : a.Underway now fired first signal)
    (silent : u.fires? = none) :
    (a.add u).Underway (now + u.lasts) fired first signal := by
  have later := underway.add u
  rwa [silent, if_neg (Option.some_ne_none signal).symm, Option.or_none] at later

theorem Underway.passing (underway : a.Underway now fired first signal) (ms : Nat) :
    ((Usage.passing ms).foldl Account.add a).Underway (now + ms) fired first signal := by
  unfold Usage.passing
  split
  · rename_i none
    rw [none]
    exact underway
  · exact underway.spared rfl

/-- A task that has had a turn has performed on its timetable until it heard of its signal. -/
theorem Underway.instants (underway : a.Underway now fired first signal)
    (begun : a.shared.desk.daily ≠ .spawned) {c : Nat} (heard : fired = some c) :
    a.performed.map (·.1) = timetable first c := by
  have phase := underway.phase
  generalize a.shared.desk.daily = task, a.performed.map (·.1) = done at phase begun ⊢
  cases phase with
  | spawned => exact absurd rfl begun
  | waiting unheard => rw [unheard c heard]
  | ended other => rw [Option.some.inj (other.symm.trans heard)]

end

end Account

end Usage

namespace Daemon

open Usage (passing timetable)

/-- What becomes of the usage logger of a daemon while it waits for its shutdown, when the stop
signal fires at `stop`, up to the report of STOPPED. -/
def Setting.waits (x : Setting) (stop : Nat) : List Usage.Use :=
  passing stop ++ [.fire 0] ++ passing (x.shutdown - stop) ++ [.logQuietly .stopped ""]

/-- All that is done with the usage logger of a daemon that returns at `finished`. The daemon gives
way to the daily task while it waits, in the grace period for its tasks. A daily task that somebody
else started has its first turn no sooner than the daemon waits, and it has the time after the
return. -/
def Setting.uses (x : Setting) (stop finished observed : Nat) : List Usage.Use :=
  (if x.dailyStarted then [.daily 1] else []) ++
    [.setProperties x.integration true x.cloud, .logQuietly .started "", .daily 0] ++
    x.waits stop ++
    (if x.wait = 0 then [] else [.pass (finished - x.shutdown)]) ++
    (if x.dailyStarted then [.pass observed] else [])

/-- The usage logger of a daemon before the daemon runs, and before anybody calls for the daily
task. -/
def Setting.desk (x : Setting) : Usage.Account :=
  { shared := { desk := { logger := x.logger, delivery := x.delivery } } }

/-- The account of the daily task when a daemon runs. -/
def Setting.account (x : Setting) (stop finished observed : Nat) : Usage.Account :=
  (x.uses stop finished observed).foldl Usage.Account.add x.desk

section

variable {x : Setting} {stop finished observed : Nat}

theorem dailyInstants_eq {until_ : Nat}
    (same : ∀ k, 0 < k → (k * Usage.dailyPeriod < stop ↔ k * Usage.dailyPeriod ≤ until_)) :
    dailyInstants stop = timetable 0 until_ := by
  refine (dailyInstants_increasing stop).eq_of_mem_iff (Usage.timetable_increasing 0 until_) ?_
  intro t
  rw [mem_dailyInstants, Usage.mem_timetable]
  constructor
  · rintro (rfl | ⟨k, rfl, before⟩)
    · exact .inl rfl
    · rcases Nat.eq_zero_or_pos k with rfl | positive
      · exact .inl (Nat.zero_mul _)
      · exact .inr ⟨k, positive, (Nat.zero_add _).symm, (same k positive).1 before⟩
  · rintro (rfl | ⟨k, positive, rfl, within⟩)
    · exact .inl rfl
    · rw [Nat.zero_add] at within ⊢
      exact .inr ⟨k, rfl, (same k positive).2 within⟩

/-- Whoever started the daily task, it is on its way while the daemon waits for its shutdown. -/
theorem underway_waits {a : Usage.Account} {signal : Nat} (underway : a.Underway 0 none 0 signal)
    (within : stop ≤ x.shutdown) :
    ((x.waits stop).foldl Usage.Account.add a).Underway x.shutdown
      (if 0 = signal then some stop else none) 0 signal := by
  have waited := (underway.passing stop).add (.fire 0)
  rw [Nat.zero_add, Option.none_or] at waited
  have heard : ((Usage.Use.fire 0).fires? = some signal) = (0 = signal) := by
    rw [Usage.Use.fires?, Option.some.injEq]
  have rested := (waited.passing (x.shutdown - stop)).spared (u := .logQuietly .stopped "") rfl
  have now : stop + (Usage.Use.fire 0).lasts + (x.shutdown - stop) +
      (Usage.Use.logQuietly .stopped "").lasts = x.shutdown := by
    simp only [Usage.Use.lasts]
    omega
  simp only [now, heard] at rested
  simpa only [Setting.waits, List.foldl_append, List.foldl_cons, List.foldl_nil] using rested

theorem instants_own (own : x.dailyStarted = false) (within : stop ≤ x.shutdown)
    (no_sooner : x.shutdown ≤ finished)
    (untied : ∀ k, 0 < k → stop ≠ k * Usage.dailyPeriod) :
    (x.account stop finished observed).performed.map (·.1) = x.days stop finished observed := by
  let called : List Usage.Use :=
    [.setProperties x.integration true x.cloud, .logQuietly .started "", .daily 0]
  have idle : x.desk.Idle := ⟨rfl, rfl, rfl, rfl⟩
  have begun : (called.foldl Usage.Account.add x.desk).Underway 0 none 0 0 :=
    ((idle.use (u := .setProperties x.integration true x.cloud) rfl).use
      (u := .logQuietly .started "") rfl).underway rfl rfl 0
  have waited := underway_waits begun within
  rw [if_pos rfl] at waited
  have days : dailyInstants stop = timetable 0 stop := by
    apply dailyInstants_eq
    intro k positive
    have apart := untied k positive
    omega
  have early {t : Nat} (due : t ∈ dailyInstants stop) : t = 0 ∨ t < stop := by
    rcases (mem_dailyInstants t stop).1 due with rfl | ⟨k, rfl, before⟩
    · exact .inl rfl
    · exact .inr before
  simp only [Setting.account, Setting.uses, Setting.days, own, Bool.false_eq_true, ↓reduceIte,
    List.nil_append, List.append_nil, List.foldl_append]
  split
  · rename_i hasty
    rcases Nat.eq_zero_or_pos x.shutdown with at_once | later
    · -- the task has no turn at all
      obtain rfl : stop = 0 := by omega
      have none : (dailyInstants 0).filter (x.allows finished) = [] := by
        rw [show dailyInstants 0 = [0] by decide]
        simp [Setting.allows, hasty, at_once]
      rw [none, Setting.waits, at_once]
      rfl
    · rw [List.foldl_nil, waited.instants (waited.begun_of_lt later) rfl, ← days]
      refine (List.filter_eq_self.2 fun t due => ?_).symm
      have before := early due
      rw [Setting.allows, if_pos hasty]
      exact decide_eq_true (by omega)
  · rename_i patient
    have settled := waited.toGoing.passed waited.time waited.by_now (finished - x.shutdown)
    rw [List.foldl_cons, List.foldl_nil, settled.instants, Option.getD_some, ← days]
    refine (List.filter_eq_self.2 fun t due => ?_).symm
    have before := early due
    rw [Setting.allows, if_neg patient]
    exact decide_eq_true (by omega)

theorem instants_other (others : x.dailyStarted = true) (within : stop ≤ x.shutdown)
    (no_sooner : x.shutdown ≤ finished) (no_later : finished ≤ x.deadline) :
    (x.account stop finished observed).performed.map (·.1) = x.days stop finished observed := by
  let called : List Usage.Use :=
    [.daily 1, .setProperties x.integration true x.cloud, .logQuietly .started "", .daily 0]
  have idle : x.desk.Idle := ⟨rfl, rfl, rfl, rfl⟩
  have begun : (called.foldl Usage.Account.add x.desk).Underway 0 none 0 1 :=
    (((idle.underway rfl rfl 1).spared (u := .setProperties x.integration true x.cloud) rfl).spared
      (u := .logQuietly .started "") rfl).spared (u := .daily 0) rfl
  have waited := underway_waits begun within
  rw [if_neg Nat.zero_ne_one] at waited
  have days : dailyInstants (finished + observed + 1) = timetable 0 (finished + observed) := by
    apply dailyInstants_eq
    intro k positive
    omega
  simp only [Setting.account, Setting.uses, Setting.days, others, ↓reduceIte, days, List.foldl_append,
    List.foldl_cons, List.foldl_nil]
  split
  · rename_i hasty
    have returned : finished = x.shutdown := by
      unfold Setting.deadline at no_later
      omega
    have settled := waited.toGoing.passed waited.time waited.by_now observed
    rw [returned]
    exact settled.instants
  · have ended := waited.spared (u := .pass (finished - x.shutdown)) rfl
    have settled := ended.toGoing.passed ended.time ended.by_now observed
    have now : x.shutdown + (finished - x.shutdown) = finished := by omega
    simp only [Usage.Use.lasts, now] at settled
    exact settled.instants

/-- The task performs at the instants at which the daemon reports RUNNING. -/
theorem instants_account (within : stop ≤ x.shutdown) (no_sooner : x.shutdown ≤ finished)
    (no_later : finished ≤ x.deadline)
    (untied : x.dailyStarted = false → ∀ k, 0 < k → stop ≠ k * Usage.dailyPeriod) :
    (x.account stop finished observed).performed.map (·.1) = x.days stop finished observed := by
  cases others : x.dailyStarted with
  | true => exact instants_other others within no_sooner no_later
  | false => exact instants_own others within no_sooner (untied others)

theorem plain_waits (x : Setting) (stop : Nat) : ∀ u ∈ x.waits stop, u.Plain := by
  have passes (ms : Nat) : ∀ u ∈ passing ms, u.Plain := by
    unfold passing
    split
    · exact nofun
    · exact List.forall_mem_singleton.2 trivial
  intro u found
  simp only [Setting.waits, List.mem_append, List.mem_singleton] at found
  rcases found with ((found | rfl) | found) | rfl
  · exact passes stop u found
  · trivial
  · exact passes _ u found
  · trivial

/-- Every time it performs, it does so by the properties of the daemon. -/
theorem alike_account (x : Setting) (stop finished observed : Nat) :
    (x.account stop finished observed).Alike
      (Usage.Logger.quiet .running (x.reporter.outcome x.delivery .running "")) := by
  have set : (((if x.dailyStarted then [.daily 1] else []).foldl Usage.Account.add x.desk).add
      (.setProperties x.integration true x.cloud)).Alike
        (Usage.Logger.quiet .running (x.reporter.outcome x.delivery .running "")) := by
    split <;> exact ⟨rfl, nofun⟩
  have plain : ∀ u ∈ [.logQuietly .started "", .daily 0] ++ x.waits stop ++
      (if x.wait = 0 then [] else [.pass (finished - x.shutdown)]) ++
      (if x.dailyStarted then [.pass observed] else []), u.Plain := by
    intro u found
    simp only [List.mem_append, List.mem_cons, List.not_mem_nil, or_false] at found
    rcases found with (((rfl | rfl) | found) | found) | found
    · trivial
    · trivial
    · exact plain_waits x stop u found
    · split at found
      · cases found
      · rw [List.mem_singleton.1 found]
        trivial
    · split at found
      · rw [List.mem_singleton.1 found]
        trivial
      · cases found
  have all := set.foldl plain
  simpa only [Setting.account, Setting.uses, List.foldl_append, List.foldl_cons, List.foldl_nil]
    using all

end

/-- The reports of RUNNING that a daemon makes are those of the daily task of its usage logger,
which goes on whenever the daemon waits. It is started by the daemon unless somebody else has
started it, and the stop signal does not fire at an instant at which it is due. -/
theorem running_told_by_task (x : Setting) (r : Registry) (observed : Nat)
    (some_service : r.services ≠ [])
    (untied : x.dailyStarted = false → ∀ k, 0 < k → x.stopsAt r ≠ k * Usage.dailyPeriod) :
    ∃ run, Daemon.run x r observed = .ok run ∧
      let performed := (x.account (x.stopsAt r) run.finished observed).performed
      run.ledger.reports =
        (reported x 0 .started).reports ++
          (Usage.Ledger.told (performed.filter (·.1 < x.shutdown))).reports ++
          (reported x x.shutdown .stopped).reports ++
          (Usage.Ledger.told (performed.filter (x.shutdown ≤ ·.1))).reports ++
          run.traces.flatMap fun t => t.2.flatMap fun e => (serviceLedger x t.1 e).reports := by
  obtain ⟨run, ok, returns⟩ := run_returns x observed some_service
  have within : x.stopsAt r ≤ x.shutdown := (tasks_arise r.services x.shutdown).2.1
  let a := x.account (x.stopsAt r) run.finished observed
  let o := Usage.Logger.quiet .running (x.reporter.outcome x.delivery .running "")
  have instants : a.performed.map (·.1) = x.days (x.stopsAt r) run.finished observed :=
    instants_account within returns.no_sooner returns.no_later untied
  have alike : ∀ p ∈ a.performed, p.2 = o := (alike_account ..).performed
  have performed : a.performed =
      (x.days (x.stopsAt r) run.finished observed).map fun t => (t, o) := by
    rw [← instants, List.map_map]
    have same : a.performed.map (fun p => (p.1, o)) = a.performed.map id :=
      List.map_congr_left fun p found => Prod.ext rfl (alike p found).symm
    exact (same.trans (List.map_id _)).symm
  have told (ts : List Nat) : (Usage.Ledger.told (ts.map fun t => (t, o))).reports =
      ts.flatMap fun t => (reported x t .running).reports := by
    simp only [Usage.Ledger.told, List.map_map, Usage.Ledger.reports_joined, List.flatMap_map]
    rfl
  refine ⟨run, ok, ?_⟩
  dsimp only
  rw [show (x.account (x.stopsAt r) run.finished observed).performed = _ from performed,
    List.filter_map, List.filter_map, told, told, returns.reports]
  rfl

end Daemon

end ChannelAgent
