import ChannelAgent.Proofs.Service.Rounds
import ChannelAgent.Service.Ledger

set_option autoImplicit false

namespace ChannelAgent

namespace Supervision

structure Stint where
  begins : Nat
  result : Service.Result

namespace Stint

/-- When the next run begins: after a panic, at the end of the delay, unless the stop signal has
fired by then. -/
def next? (st : Stint) (delay : Duration) : Option Nat :=
  match st.result.ending with
  | .panicked t _ =>
    if st.result.signal.fired (t + delay.pauseMillis) then none else some (t + delay.pauseMillis)
  | _ => none

/-- When the task ends whose last run this is: with a return, or when the stop signal fires after a
panic, or with the panic if it has fired before. -/
def over? (st : Stint) : Option Nat :=
  match st.result.ending with
  | .returned t => some t
  | .panicked t _ => st.result.signal.firesAt.map fun c => max c t
  | .endless => none

/-- When the run is reported as a failure: at its panic, or at a return before the stop signal that
comes sooner than expected. -/
def failures (s : Service) (st : Stint) : List Nat :=
  match st.result.ending with
  | .panicked t _ => [t]
  | .returned t =>
    if st.result.signal.fired t = false ∧ (t - st.begins) * 1000000 < s.minimum.toNanos then [t]
    else []
  | .endless => []

theorem of_next? {st : Stint} {delay : Duration} {due : Nat} (next : st.next? delay = some due) :
    ∃ t message, st.result.ending = .panicked t message ∧ due = t + delay.pauseMillis ∧
      st.result.signal.fired due = false := by
  unfold next? at next
  split at next
  · rename_i t message ends
    split at next
    · cases next
    · rename_i quiet
      obtain rfl := Option.some.inj next
      exact ⟨t, message, ends, rfl, by simpa using quiet⟩
  · cases next

end Stint

/-- The runs of a service, each of which takes up the count of calls and the stop signal where the
one before it has left them. -/
def Chained (s : Service) : (calls : Nat) → Signal → List Stint → Prop
  | _, _, [] => True
  | calls, signal, st :: later =>
    st.result = s.run calls st.begins signal ∧ Chained s st.result.calls st.result.signal later

def instants (shows : Event → Bool) (events : List (Nat × Event)) : List Nat :=
  (events.filter fun e => shows e.2).map (·.1)

def Event.isStarting (e : Event) : Bool := e = .starting

/-- The life of a service in a task that looks after it from an instant on, after some calls of its
work: its runs, and what the task came to. -/
structure Supervised (s : Service) (backoff : Backoff) (calls now : Nat) (signal : Signal)
    (stints : List Stint) (t : Trace) : Prop where
  chained : Chained s calls signal stints
  next : ∀ n st, stints[n]? = some st →
    stints[n + 1]?.map (·.begins) = st.next? (backoff.interval n)
  starts : instants Event.isStarting t.events = stints.map (·.begins)
  failures : instants Event.isFailure t.events = stints.flatMap (Stint.failures s)
  ended : t.ended =
    match stints.getLast? with
    | none => some now
    | some st => st.over?
  signal : t.signal =
    match stints.getLast? with
    | none => signal
    | some st => st.result.signal

section

variable {s : Service} {backoff : Backoff} {calls now c : Nat} {signal : Signal}
  {stints : List Stint} {t : Trace}

theorem instants_append (shows : Event → Bool) (first second : List (Nat × Event)) :
    instants shows (first ++ second) = instants shows first ++ instants shows second := by
  simp [instants]

theorem instants_filter (shows : Event → Bool) (allowed : Nat → Bool)
    (events : List (Nat × Event)) :
    instants shows (events.filter fun e => allowed e.1) =
      (instants shows events).filter allowed := by
  simp [instants, List.filter_map, List.filter_filter, Function.comp_def, Bool.and_comm]

theorem Chained.mem (chained : Chained s calls signal stints) (fires : signal.firesAt = some c) :
    ∀ st ∈ stints, ∃ before found c', found.firesAt = some c' ∧ c' ≤ c ∧
      st.result = s.run before st.begins found := by
  induction stints generalizing calls signal c with
  | nil => exact nofun
  | cons st later ih =>
    obtain ⟨same, rest⟩ := chained
    obtain ⟨c', no_later, fires'⟩ := (s.run_becomes calls st.begins signal).fires_no_later fires
    refine List.forall_mem_cons.2 ⟨⟨calls, signal, c, fires, Nat.le_refl c, same⟩, ?_⟩
    intro st' found
    obtain ⟨before, found, c'', fires'', le, same'⟩ := ih rest (same ▸ fires') st' found
    exact ⟨before, found, c'', fires'', Nat.le_trans le no_later, same'⟩

/-- No run puts the stop signal off. -/
theorem Chained.fires (chained : Chained s calls signal stints) (fires : signal.firesAt = some c) :
    ∀ st ∈ stints, ∃ c', c' ≤ c ∧ st.result.signal.firesAt = some c' := by
  intro st found
  obtain ⟨before, seen, d, fires', earlier, same⟩ := chained.mem fires st found
  obtain ⟨c', still, fires''⟩ := (s.run_becomes before st.begins seen).fires_no_later fires'
  exact ⟨c', Nat.le_trans still earlier, same ▸ fires''⟩

theorem Chained.signal_eq (chained : Chained s calls signal stints) (leaves : s.LeavesSignal) :
    ∀ st ∈ stints, st.result.signal = signal := by
  induction stints generalizing calls with
  | nil => exact nofun
  | cons st later ih =>
    obtain ⟨same, rest⟩ := chained
    have kept : st.result.signal = signal := same ▸ leaves.run calls st.begins signal
    exact List.forall_mem_cons.2 ⟨kept, ih (kept ▸ rest)⟩

structure Leaves (s : Service) (st : Stint) (events : List (Nat × Event)) : Prop where
  starts : instants Event.isStarting events = [st.begins]
  failures : instants Event.isFailure events = st.failures s

/-- What happens in a run is neither its start nor a failure. -/
theorem instants_running {shows : Event → Bool} (silent : ∀ e, shows (.running e) = false)
    (events : List (Nat × Service.Event)) :
    instants shows (events.map fun e => (e.1, .running e.2)) = [] := by
  rw [instants, List.map_eq_nil_iff, List.filter_eq_nil_iff]
  intro e found
  obtain ⟨happened, -, rfl⟩ := List.mem_map.1 found
  simp [silent]

/-- Milliseconds beyond the longest duration are counted as that one, which no minimum exceeds. -/
theorem toNanos_ofMillis_lt (ms : Nat) (d : Duration) :
    (ofMillis ms).toNanos < d.toNanos ↔ ms * 1000000 < d.toNanos := by
  have most := d.toNanos_le_longest
  rw [ofMillis, Duration.toNanos_ofNanos]
  omega

/-- A run, and what is added at its end. -/
theorem leaves_run (st : Stint) (verdict : List (Nat × Event))
    (calm : instants Event.isStarting verdict = [])
    (judged : instants Event.isFailure verdict = st.failures s) :
    Leaves s st ((st.begins, .starting) :: st.result.events.map (fun e => (e.1, .running e.2)) ++
      verdict) where
  starts := by
    rw [instants_append, calm, List.append_nil]
    exact congrArg (st.begins :: ·) (instants_running (fun _ => rfl) _)
  failures := by
    rw [instants_append, judged]
    exact congrArg (· ++ st.failures s) (instants_running (fun _ => rfl) _)

/-- A run that nothing is added to. -/
theorem leaves_bare (st : Stint) (silent : st.failures s = []) :
    Leaves s st ((st.begins, .starting) :: st.result.events.map fun e => (e.1, .running e.2)) := by
  have leaves := leaves_run st [] rfl silent.symm
  rwa [List.append_nil] at leaves

theorem instants_judge (st : Stint) {done : Nat} (returns : st.result.ending = .returned done)
    (quiet : st.result.signal.fired done = false) :
    instants Event.isStarting (judge s st.begins done) = [] ∧
      instants Event.isFailure (judge s st.begins done) = st.failures s := by
  by_cases short : (done - st.begins) * 1000000 < s.minimum.toNanos
  · have early := (toNanos_ofMillis_lt _ _).2 short
    simp [judge, instants, early, Stint.failures, returns, quiet, short, Event.isStarting,
      Event.isFailure]
  · have late := mt (toNanos_ofMillis_lt _ _).1 short
    simp [judge, instants, late, Stint.failures, returns, quiet, short, Event.isStarting,
      Event.isFailure]

/-- The task is over with a run, or another run is due. -/
theorem runOnce_cases (s : Service) {backoff : Backoff} (lasting : backoff.Lasting)
    (calls now : Nat) (signal : Signal) :
    let st : Stint := ⟨now, s.run calls now signal⟩
    (∃ t, runOnce s backoff calls now signal = .last t ∧ st.next? (backoff.interval 0) = none ∧
      Leaves s st t.events ∧ t.ended = st.over? ∧ t.signal = st.result.signal) ∨
    ∃ events due, runOnce s backoff calls now signal =
        .again events backoff.next.2 st.result.calls due st.result.signal ∧
      st.next? (backoff.interval 0) = some due ∧ Leaves s st events := by
  intro st
  unfold runOnce
  cases ends : (s.run calls now signal).ending with
  | endless =>
    left
    have silent : st.failures s = [] := by simp [Stint.failures, st, ends]
    simp only [ends]
    exact ⟨_, rfl, by simp [Stint.next?, st, ends], leaves_bare st silent,
      by simp [Stint.over?, st, ends], rfl⟩
  | returned done =>
    left
    have none : st.next? (backoff.interval 0) = none := by simp [Stint.next?, st, ends]
    have ends_then : st.over? = some done := by simp [Stint.over?, st, ends]
    simp only [ends]
    split
    · rename_i fired
      have silent : st.failures s = [] := by simp [Stint.failures, st, ends, fired]
      exact ⟨_, rfl, none, leaves_bare st silent, ends_then.symm, rfl⟩
    · rename_i quiet
      obtain ⟨calm, judged⟩ := instants_judge (s := s) st ends (by simpa using quiet)
      exact ⟨_, rfl, none, leaves_run st _ calm judged, ends_then.symm, rfl⟩
  | panicked done message =>
    let due := done + (backoff.interval 0).pauseMillis
    have later : done < due := Nat.lt_add_of_pos_right (Duration.pauseMillis_pos (lasting 0))
    have leaves := leaves_run (s := s) st [(done, .panicked message (backoff.interval 0))] rfl
      (by simp [Stint.failures, st, ends, instants, Event.isFailure])
    cases fired : (s.run calls now signal).signal.fired due with
    | false =>
      right
      have wait : (s.run calls now signal).signal.wait done
          (some (done + backoff.current.pauseMillis)) = .due due :=
        Signal.wait_of_not_fired fired done
      simp only [ends, Backoff.next, wait]
      exact ⟨_, due, rfl, by simp [Stint.next?, st, ends, due, fired], leaves⟩
    | true =>
      left
      obtain ⟨c, fires, before⟩ := (Signal.fired_iff _ _).1 fired
      have wait : (s.run calls now signal).signal.wait done
          (some (done + backoff.current.pauseMillis)) = .stopped (max c done) :=
        Signal.wait_of_fires later fires before
      simp only [ends, Backoff.next, wait]
      exact ⟨_, rfl, by simp [Stint.next?, st, ends, due, fired], leaves,
        by simp [Stint.over?, st, ends, fires], rfl⟩

theorem supervised_stopped (now : Nat) (signal : Signal) :
    Supervised s backoff calls now signal [] ⟨[], some now, signal⟩ :=
  ⟨trivial, nofun, rfl, rfl, rfl, rfl⟩

theorem supervised_last {st : Stint} (result : st.result = s.run calls st.begins signal)
    (none : st.next? (backoff.interval 0) = none) (leaves : Leaves s st t.events)
    (ended : t.ended = st.over?) (signalled : t.signal = st.result.signal) :
    Supervised s backoff calls st.begins signal [st] t where
  chained := ⟨result, trivial⟩
  next n found here := by
    cases n with
    | zero =>
      obtain rfl : st = found := by simpa using here
      simp [none]
    | succ n => simp at here
  starts := leaves.starts
  failures := by simpa using leaves.failures
  ended := ended
  signal := signalled

/-- A run in front of the life that begins at the end of the delay after it. -/
theorem Supervised.cons {st : Stint} {events : List (Nat × Event)} {due : Nat}
    (result : st.result = s.run calls st.begins signal)
    (next : st.next? (backoff.interval 0) = some due) (leaves : Leaves s st events)
    (first : stints.head?.map (·.begins) = some due)
    (later : Supervised s backoff.next.2 st.result.calls due st.result.signal stints t) :
    Supervised s backoff calls st.begins signal (st :: stints) (t.after events) := by
  obtain ⟨following, rest, rfl⟩ : ∃ following rest, stints = following :: rest := by
    cases stints with
    | nil => simp at first
    | cons following rest => exact ⟨following, rest, rfl⟩
  refine ⟨⟨result, later.chained⟩, ?_, ?_, ?_, later.ended, later.signal⟩
  · intro n found here
    cases n with
    | zero =>
      obtain rfl : st = found := by simpa using here
      rw [next]
      exact first
    | succ n => exact later.next n found here
  · rw [Trace.after, instants_append, leaves.starts, later.starts]
    rfl
  · rw [Trace.after, instants_append, leaves.failures, later.failures]
    rfl

/-- Runs of a service are looked after until the stop signal, and no run begins after it. There are
fewer of them than milliseconds, so the bound is not met. -/
theorem superviseRuns_spec {runs : Nat} (lasting : backoff.Lasting) (fires : signal.firesAt = some c)
    (enough : c - now < runs) :
    ∃ stints, Supervised s backoff calls now signal stints
        (superviseRuns s runs backoff calls now signal) ∧
      stints.head?.map (·.begins) = (if signal.fired now then none else some now) ∧
      ∀ st ∈ stints, st.begins < c := by
  induction runs generalizing backoff calls now signal c with
  | zero => exact absurd enough (Nat.not_lt_zero _)
  | succ runs ih =>
    rw [superviseRuns]
    split
    · rename_i fired
      exact ⟨[], supervised_stopped now signal, by simp, nofun⟩
    · rename_i quiet
      have begun : now < c := (Signal.not_fired_iff _ _).1 (by simpa using quiet) c fires
      rcases runOnce_cases s lasting calls now signal with
        ⟨t, once, none, leaves, ended, signalled⟩ | ⟨events, due, once, next, leaves⟩
      · refine ⟨[⟨now, s.run calls now signal⟩], ?_, by simp, by simpa using begun⟩
        rw [once]
        exact supervised_last rfl none leaves ended signalled
      · obtain ⟨c', no_later, fires'⟩ := (s.run_becomes calls now signal).fires_no_later fires
        obtain ⟨done, message, ends, rfl, unfired⟩ := Stint.of_next? next
        have before := (Signal.not_fired_iff _ _).1 unfired c' fires'
        have onward : now ≤ done := (s.spans_run _ now _).onward done (by rw [ends]; rfl)
        have some_time := Duration.pauseMillis_pos (lasting 0)
        have fewer : c' - (done + (backoff.interval 0).pauseMillis) < runs := by omega
        obtain ⟨stints, later, first, begins⟩ := ih lasting.next fires' fewer
        refine ⟨⟨now, s.run calls now signal⟩ :: stints, ?_, by simp, ?_⟩
        · rw [once]
          exact Supervised.cons rfl next leaves (by rw [first, unfired]; rfl) later
        · refine List.forall_mem_cons.2 ⟨begun, fun st found => ?_⟩
          exact Nat.lt_of_lt_of_le (begins st found) no_later

theorem supervise_spec (s : Service) {backoff : Backoff} (lasting : backoff.Lasting) (now : Nat)
    (signal : Signal) (fires : signal.firesAt = some c) :
    ∃ stints, Supervised s backoff 0 now signal stints (supervise s backoff now signal) ∧
      stints.head?.map (·.begins) = (if signal.fired now then none else some now) ∧
      ∀ st ∈ stints, st.begins < c := by
  refine superviseRuns_spec lasting fires ?_
  simp only [Signal.patience, fires]
  omega

/-- A service that begins when the stop signal has fired makes one run, whatever its end. -/
theorem superviseStarted_spec (s : Service) {backoff : Backoff} (lasting : backoff.Lasting)
    {now : Nat} {signal : Signal} (fires : signal.firesAt = some c) (late : c ≤ now) :
    Supervised s backoff 0 now signal [⟨now, s.run 0 now signal⟩]
      (superviseStarted s backoff now signal) := by
  rw [superviseStarted]
  rcases runOnce_cases s lasting 0 now signal with
    ⟨t, once, none, leaves, ended, signalled⟩ | ⟨events, due, once, next, leaves⟩
  · rw [once]
    exact supervised_last rfl none leaves ended signalled
  · -- the signal has fired before any delay is over
    obtain ⟨done, message, ends, rfl, unfired⟩ := Stint.of_next? next
    obtain ⟨c', no_later, fires'⟩ := (s.run_becomes 0 now signal).fires_no_later fires
    have before := (Signal.not_fired_iff _ _).1 unfired c' fires'
    have onward : now ≤ done := (s.spans_run _ now _).onward done (by rw [ends]; rfl)
    omega

/-- What happens up to the end of a task, or up to the beginning of the next run. -/
def Sequel.Spans (now : Nat) : Sequel → Prop
  | .last t => ChannelAgent.Spans now t.events t.ended
  | .again events _ _ due _ => ChannelAgent.Spans now events (some due)

theorem spans_judge (s : Service) (started done : Nat) :
    Spans done (judge s started done) (some done) :=
  .event _ (Nat.le_refl done) (Nat.le_refl done)

theorem spans_runOnce (s : Service) (backoff : Backoff) (calls now : Nat) (signal : Signal) :
    (runOnce s backoff calls now signal).Spans now := by
  have starting : Spans now [(now, Event.starting)] (some now) :=
    .event _ (Nat.le_refl now) (Nat.le_refl now)
  have running := starting.trans ((s.spans_run calls now signal).map Event.running)
  unfold runOnce
  cases ends : (s.run calls now signal).ending with
  | endless =>
    simp only [ends]
    exact .never now _
  | returned done =>
    rw [ends] at running
    simp only [ends]
    split
    · exact running
    · exact running.trans (spans_judge s now done)
  | panicked done message =>
    rw [ends] at running
    simp only [ends]
    split
    · rename_i due waits
      have later := Signal.le_of_due (Nat.le_add_right done _) waits
      exact running.trans (.event _ (Nat.le_refl done) later)
    · rename_i t stops
      exact running.trans (.event _ (Nat.le_refl done) (Signal.le_of_stopped stops))
    · exact .never now _

theorem spans_superviseRuns (runs : Nat) :
    Spans now (superviseRuns s runs backoff calls now signal).events
      (superviseRuns s runs backoff calls now signal).ended := by
  induction runs generalizing backoff calls now signal with
  | zero => exact .never now _
  | succ runs ih =>
    have once := spans_runOnce s backoff calls now signal
    rw [superviseRuns]
    split
    · exact .nil (Nat.le_refl now)
    · split
      · rename_i t same
        rw [same] at once
        exact once
      · rename_i same
        rw [same] at once
        exact ChannelAgent.Spans.trans once ih

/-- The task that looks after a service tells of nothing later than its end. -/
theorem spans_supervise (s : Service) (backoff : Backoff) (now : Nat) (signal : Signal) :
    Spans now (supervise s backoff now signal).events (supervise s backoff now signal).ended :=
  spans_superviseRuns _

theorem spans_superviseStarted (s : Service) (backoff : Backoff) (now : Nat) (signal : Signal) :
    Spans now (superviseStarted s backoff now signal).events
      (superviseStarted s backoff now signal).ended := by
  have once := spans_runOnce s backoff 0 now signal
  unfold superviseStarted
  split
  · rename_i t same
    rw [same] at once
    exact once
  · rename_i same
    rw [same] at once
    exact ChannelAgent.Spans.trans once (spans_superviseRuns _)

theorem Supervised.signal_eq (life : Supervised s backoff calls now signal stints t)
    (leaves : s.LeavesSignal) : t.signal = signal := by
  rw [life.signal]
  cases last : stints.getLast? with
  | none => rfl
  | some st => exact life.chained.signal_eq leaves st (List.mem_of_getLast? last)

/-- The report that a failure of a service leads to, if one is made. -/
def report? (logger : Usage.Logger) (delivery : Usage.Delivery) (s : Service) :
    Option Usage.Request :=
  (logger.outcome delivery .error (toString s.code)).report

theorem reports_ledger (logger : Usage.Logger) (delivery : Usage.Delivery) (s : Service)
    (events : List (Nat × Event)) :
    events.flatMap (fun e => (ledger logger delivery s e).reports) =
      (instants Event.isFailure events).flatMap fun at_ =>
        ((report? logger delivery s).map fun r => (at_, r)).toList := by
  induction events with
  | nil => rfl
  | cons e events ih =>
    rw [List.flatMap_cons, ih]
    cases failure : e.2.isFailure with
    | true =>
      have shown : instants Event.isFailure (e :: events) =
          e.1 :: instants Event.isFailure events := by simp [instants, failure]
      rw [shown, List.flatMap_cons, ledger, failure]
      simp [Usage.Logger.report_quiet, report?]
    | false =>
      have shown : instants Event.isFailure (e :: events) =
          instants Event.isFailure events := by simp [instants, failure]
      rw [shown, ledger, failure]
      rfl

end

/-- A supervised service, from its runs. The first one begins at once, unless the stop signal has
fired. Another one follows a panic and nothing else, after a delay that the number of panics before
it decides, unless the signal fires up to the end of the delay; so none begins once it has fired.
The code of the service is reported for each panic, whenever it comes, and for a return that is too
early and comes before the signal. The task ends with a return, or in the delay after a panic when
the signal fires; it does not end with a run that goes on for ever. The signal is the one that is
given from outside, unless the service gives it before. -/
theorem restarted_only_after_panics (s : Service) (initial maximum : Duration) (multiplier : UInt32)
    (starts : 0 < initial.toNanos) (grows : 0 < multiplier.toNat) (most : 0 < maximum.toNanos)
    (now c : Nat) (logger : Usage.Logger) (delivery : Usage.Delivery) :
    let policy := Backoff.new initial multiplier maximum
    let t := supervise s policy now ⟨some c⟩
    ∃ stints, Chained s 0 ⟨some c⟩ stints ∧
      (s.LeavesSignal → ∀ st ∈ stints, st.result.signal = ⟨some c⟩) ∧
      stints.head?.map (·.begins) = (if c ≤ now then none else some now) ∧
      (∀ n st, stints[n]? = some st →
        stints[n + 1]?.map (·.begins) = st.next? (policy.interval n)) ∧
      (∀ n, (policy.interval n).toNanos =
          min (min initial.toNanos maximum.toNanos * multiplier.toNat ^ n) maximum.toNanos ∧
        ((policy.interval n).Representable →
          (policy.interval n).pauseMillis * 1000000 = (policy.interval n).toNanos)) ∧
      (∀ st ∈ stints, st.begins < c) ∧
      instants Event.isStarting t.events = stints.map (·.begins) ∧
      (t.ledger logger delivery s).reports =
        (stints.flatMap (Stint.failures s)).flatMap (fun at_ =>
          ((report? logger delivery s).map fun r => (at_, r)).toList) ∧
      t.ended = (stints.getLast?.elim (some now) Stint.over?) := by
  intro policy t
  have lasting : policy.Lasting := Backoff.lasting_new starts grows most
  obtain ⟨stints, life, first, begins⟩ := supervise_spec s lasting now ⟨some c⟩ rfl
  refine ⟨stints, life.chained, life.chained.signal_eq, ?_, life.next, ?_, begins, life.starts, ?_, ?_⟩
  · rw [first]
    simp [Signal.fired]
  · intro n
    exact ⟨Backoff.toNanos_interval_new initial multiplier maximum n,
      Duration.pauseMillis_of_representable⟩
  · rw [← life.failures, ← reports_ledger, Trace.ledger]
    exact (Usage.Ledger.reports_joined _).trans (List.flatMap_map ..)
  · rw [life.ended]
    cases stints.getLast? <;> rfl

/-- It panics in its first two calls, after a tenth of a second, and then waits to be stopped. -/
def flaky : Service where
  name := "flaky"
  code := 51
  interval := none
  minimum := .ofSeconds 60
  work := Service.scripted fun n =>
    if n < 2 then { sleeps := 100, finish := .panics "boom" } else { finish := .awaitsStop }

/-- Two restarts, after two and after four seconds, and a stop that is no failure. -/
theorem restarted_only_after_panics_flaky :
    let policy := Backoff.new (.ofSeconds 2) 2 (.ofSeconds 3600)
    let t := supervise flaky policy 0 ⟨some 7000⟩
    0 < (Duration.ofSeconds 2).toNanos ∧ 0 < (2 : UInt32).toNat ∧
      0 < (Duration.ofSeconds 3600).toNanos ∧
      ∃ stints : List Stint, stints.map (·.begins) = [0, 2100, 6200] ∧
        t.ended = stints.getLast?.elim (some 0) Stint.over? ∧ t.ended = some 7000 := by
  intro policy t
  obtain ⟨stints, -, -, -, -, -, -, starts, -, ended⟩ :=
    restarted_only_after_panics flaky (.ofSeconds 2) (.ofSeconds 3600) 2 (by decide) (by decide)
      (by decide) 0 7000 {} .sure
  have begun : instants Event.isStarting t.events = [0, 2100, 6200] := by decide
  exact ⟨by decide, by decide, by decide, stints, starts.symm.trans begun, ended, by decide⟩

end Supervision

end ChannelAgent
