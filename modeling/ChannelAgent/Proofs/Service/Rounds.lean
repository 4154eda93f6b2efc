import ChannelAgent.Proofs.Backoff
import ChannelAgent.Proofs.Signal
import ChannelAgent.Service.Run
import ChannelAgent.Service.Script

set_option autoImplicit false

namespace ChannelAgent.Service

/-- A call of the work, with the stop signal as the call finds it. -/
structure Made where
  number : Nat
  begins : Nat
  signal : Signal

def Made.course (s : Service) (m : Made) : Course := s.work.call m.number m.begins m.signal

/-- The rounds of a periodic service from the beginning of a wait on: the calls made in them and
what they come to. -/
inductive Rounds (s : Service) (interval : Duration) :
    (calls now : Nat) → Signal → List Made → Result → Prop
  /-- The stop signal fires before the wait is over, or has fired before it. -/
  | stopped {calls now c : Nat} {signal : Signal} (fires : signal.firesAt = some c)
    (early : c ≤ now + interval.pauseMillis) :
    Rounds s interval calls now signal []
      ⟨⟨.returned (max c now), [(now, .waiting), (max c now, .stopped)], signal⟩, calls⟩
  /-- The call at the end of the wait panics or goes on for ever. -/
  | broken {calls now : Nat} {signal : Signal} {m : Made}
    (call : m = ⟨calls, now + interval.pauseMillis, signal⟩)
    (quiet : signal.fired m.begins = false)
    (breaks : ∀ done, (m.course s).ending ≠ .returned done) :
    Rounds s interval calls now signal [m]
      (Result.after [(now, .waiting)] ⟨m.course s, calls + 1⟩)
  /-- It returns, and the next wait begins. -/
  | again {calls now done : Nat} {signal : Signal} {m : Made} {made : List Made} {r : Result}
    (call : m = ⟨calls, now + interval.pauseMillis, signal⟩)
    (quiet : signal.fired m.begins = false)
    (returns : (m.course s).ending = .returned done)
    (later : Rounds s interval (calls + 1) done (m.course s).signal made r) :
    Rounds s interval calls now signal (m :: made)
      (Result.after [(now, .waiting)] (r.after (m.course s).events))

/-- A run of a service of which some calls were made before. -/
inductive Runs (s : Service) : (calls now : Nat) → Signal → List Made → Result → Prop
  | routine {calls now : Nat} {signal : Signal} (once : s.interval = none) :
    Runs s calls now signal [⟨calls, now, signal⟩] ⟨s.work.call calls now signal, calls + 1⟩
  | periodic {calls now : Nat} {signal : Signal} {interval : Duration} {made : List Made}
    {r : Result} (every : s.interval = some interval)
    (rounds : Rounds s interval calls now signal made r) : Runs s calls now signal made r

/-- The waits of a service take some time. -/
def Paced (s : Service) : Prop := ∀ d, s.interval = some d → 0 < d.toNanos

/-- The work leaves the stop signal alone. -/
def LeavesSignal (s : Service) : Prop :=
  ∀ n now signal, (s.work.call n now signal).signal = signal

section

variable {s : Service} {interval : Duration} {calls now c : Nat} {signal : Signal}
  {made : List Made} {r : Result}

theorem spans_periodic (rounds : Nat) :
    Spans now (periodic s interval rounds calls now signal).events
      (periodic s interval rounds calls now signal).ending.instant? := by
  induction rounds generalizing calls now signal with
  | zero => exact .never now _
  | succ rounds ih =>
    simp only [periodic, Result.after]
    split
    · exact .never now _
    · rename_i t stops
      have waited : now ≤ t := signal.le_of_stopped stops
      have waiting : Spans now [(now, Event.waiting)] (some t) := .event _ (Nat.le_refl now) waited
      exact waiting.trans (.event _ (Nat.le_refl t) (Nat.le_refl t))
    · rename_i u due
      have waited : now ≤ u := signal.le_of_due (Nat.le_add_right _ _) due
      have waiting : Spans now [(now, Event.waiting)] (some u) := .event _ (Nat.le_refl now) waited
      have called := s.work.spans calls u signal
      split
      · rename_i done returns
        rw [returns] at called
        exact waiting.trans (called.trans ih)
      · exact waiting.trans called

theorem periodic_becomes (rounds : Nat) :
    signal.Becomes now (periodic s interval rounds calls now signal).signal := by
  induction rounds generalizing calls now signal with
  | zero => exact .refl signal now
  | succ rounds ih =>
    simp only [periodic, Result.after]
    split
    · exact .refl signal now
    · exact .refl signal now
    · rename_i u due
      have waited : now ≤ u := signal.le_of_due (Nat.le_add_right _ _) due
      have call : signal.Becomes now (s.work.call calls u signal).signal :=
        (Signal.Becomes.refl signal now).trans waited (s.work.giving calls u signal)
      split
      · rename_i done returns
        have called := s.work.onward calls u signal done (by rw [returns]; rfl)
        exact call.trans (Nat.le_trans waited called) ih
      · exact call

/-- Nothing happens in a run after its end. -/
theorem spans_run (s : Service) (calls now : Nat) (signal : Signal) :
    Spans now (s.run calls now signal).events (s.run calls now signal).ending.instant? := by
  unfold run
  split
  · exact s.work.spans calls now signal
  · exact spans_periodic _

theorem run_becomes (s : Service) (calls now : Nat) (signal : Signal) :
    signal.Becomes now (s.run calls now signal).signal := by
  unfold run
  split
  · exact s.work.giving calls now signal
  · exact periodic_becomes _

theorem LeavesSignal.periodic (leaves : s.LeavesSignal) (rounds : Nat) :
    (periodic s interval rounds calls now signal).signal = signal := by
  induction rounds generalizing calls now with
  | zero => rfl
  | succ rounds ih =>
    simp only [Service.periodic, Result.after]
    split
    · rfl
    · rfl
    · rename_i u due
      split
      · rename_i done returns
        simp only [leaves calls u signal]
        exact ih
      · exact leaves calls u signal

theorem LeavesSignal.run (leaves : s.LeavesSignal) (calls now : Nat) (signal : Signal) :
    (s.run calls now signal).signal = signal := by
  unfold Service.run
  split
  · exact leaves calls now signal
  · exact leaves.periodic _

theorem Finish.leaves {f : Finish} (heeds : f ≠ .givesStop) (n now : Nat) (signal : Signal) :
    (f.course n now signal).signal = signal := by
  cases f with
  | givesStop => exact absurd rfl heeds
  | awaitsStop =>
    simp only [Finish.course]
    split <;> rfl
  | _ => rfl

/-- Work by a script leaves the signal alone unless the script says otherwise. -/
theorem leaves_scripted {calls : Nat → Call} (heed : ∀ n, (calls n).finish ≠ .givesStop)
    (scripted : s.work = Service.scripted calls) : s.LeavesSignal := by
  intro n now signal
  rw [scripted]
  change ((calls n).afterStart n now signal).signal = signal
  unfold Call.afterStart
  split
  · rfl
  · split
    · split
      · exact Finish.leaves (heed n) ..
      · rfl
      · rfl
    · exact Finish.leaves (heed n) ..

/-- There are more waits than milliseconds up to the stop signal, so they do not run out. -/
theorem periodic_rounds (paced : 0 < interval.toNanos) {rounds : Nat}
    (fires : signal.firesAt = some c) (enough : c - now < rounds) :
    ∃ made, Rounds s interval calls now signal made (periodic s interval rounds calls now signal) := by
  have some_time := Duration.pauseMillis_pos paced
  induction rounds generalizing calls now c signal with
  | zero => exact absurd enough (Nat.not_lt_zero _)
  | succ rounds ih =>
    by_cases early : c ≤ now + interval.pauseMillis
    · have cut : signal.wait now (some (now + interval.pauseMillis)) = .stopped (max c now) :=
        Signal.wait_of_fires (by omega) fires early
      refine ⟨[], ?_⟩
      simp only [periodic, cut]
      exact .stopped fires early
    · have quiet : signal.fired (now + interval.pauseMillis) = false := by
        rw [Signal.not_fired_iff]
        intro c' fires'
        obtain rfl := Option.some.inj (fires.symm.trans fires')
        omega
      let m : Made := ⟨calls, now + interval.pauseMillis, signal⟩
      simp only [periodic, Signal.wait_of_not_fired quiet]
      cases ends : (s.work.call calls (now + interval.pauseMillis) signal).ending with
      | returned done =>
        have called := s.work.onward _ _ _ done (by rw [ends]; rfl)
        obtain ⟨c', no_later, fires'⟩ := (s.work.giving calls m.begins signal).fires_no_later fires
        have fewer : c' - done < rounds := by omega
        obtain ⟨made, later⟩ := @ih (calls + 1) done c' _ fires' fewer
        exact ⟨m :: made, .again rfl quiet ends later⟩
      | panicked done message =>
        refine ⟨[m], .broken rfl quiet ?_⟩
        exact fun done' returns => nomatch ends.symm.trans returns
      | endless =>
        refine ⟨[m], .broken rfl quiet ?_⟩
        exact fun done' returns => nomatch ends.symm.trans returns

theorem run_runs (paced : s.Paced) (fires : signal.firesAt = some c) (calls now : Nat) :
    ∃ made, s.Runs calls now signal made (s.run calls now signal) := by
  unfold run
  split
  · rename_i once
    exact ⟨_, .routine once⟩
  · rename_i interval every
    have enough : c - now < signal.patience now := by
      simp only [Signal.patience, fires]
      omega
    obtain ⟨made, rounds⟩ := periodic_rounds (paced interval every) fires enough
    exact ⟨made, .periodic every rounds⟩

/-- In the rounds of a periodic service no call begins once the stop signal has fired. -/
theorem Rounds.begins_before (rounds : Rounds s interval calls now signal made r)
    (fires : signal.firesAt = some c) : ∀ m ∈ made, m.begins < c := by
  induction rounds generalizing c with
  | stopped => exact nofun
  | broken call quiet =>
    subst call
    simpa using (Signal.not_fired_iff _ _).1 quiet c fires
  | again call quiet _ _ ih =>
    subst call
    have here := (Signal.not_fired_iff _ _).1 quiet c fires
    obtain ⟨c', no_later, fires'⟩ := (s.work.giving ..).fires_no_later fires
    refine List.forall_mem_cons.2 ⟨here, fun m found => ?_⟩
    exact Nat.lt_of_lt_of_le (ih fires' m found) no_later

theorem Runs.begins_before (runs : s.Runs calls now signal made r) (fires : signal.firesAt = some c)
    {d : Nat} (no_later : c ≤ d) (begun : now < d) : ∀ m ∈ made, m.begins < d := by
  cases runs with
  | routine => simpa using begun
  | periodic _ rounds =>
    exact fun m found => Nat.lt_of_lt_of_le (rounds.begins_before fires m found) no_later

end

end ChannelAgent.Service
