import Mathlib.Algebra.BigOperators.Group.Finset.Basic
import ChannelAgent.Proofs.Service.Rounds

set_option autoImplicit false

namespace ChannelAgent

/-- A signal that had not fired when something was begun does not fire before it. -/
theorem Signal.Becomes.le_of_fires {s later : Signal} {since c : Nat}
    (becomes : s.Becomes since later) (quiet : s.fired since = false)
    (fires : later.firesAt = some c) : since ≤ c := by
  have unfired := (s.not_fired_iff since).1 quiet
  rcases becomes with rfl | ⟨t, after, rfl⟩
  · exact Nat.le_of_lt (unfired c fires)
  · unfold Signal.giveAt at fires
    split at fires
    · rename_i d known
      have before := unfired d known
      have first := Option.some.inj fires
      omega
    · have first := Option.some.inj fires
      omega

namespace Service

/-- When the wait for the `n`th call begins, counted from zero: after `n` waits of one length and
all that the calls before it have taken. -/
def waitFrom (start pause : Nat) (lasting : Nat → Nat) (n : Nat) : Nat :=
  start + n * pause + ∑ i ∈ Finset.range n, lasting i

/-- When the `n`th call is due: at the end of that wait. -/
def dueAt (start pause : Nat) (lasting : Nat → Nat) (n : Nat) : Nat :=
  start + (n + 1) * pause + ∑ i ∈ Finset.range n, lasting i

/-- The calls return, each after its time. -/
def Takes (s : Service) (lasting : Nat → Nat) (made : List Made) : Prop :=
  ∀ (n : Nat) (m : Made), made[n]? = some m →
    (m.course s).ending = .returned (m.begins + lasting n)

/-- The calls of a run and its end, for a stop signal that fires at `c`. -/
structure OnSchedule (pause start c : Nat) (lasting : Nat → Nat) (made : List Made) (r : Result) :
    Prop where
  /-- The calls that are made are those that are due before the signal, and each is made when
  due. -/
  begins : ∀ n : Nat, made[n]?.map (·.begins) =
    if dueAt start pause lasting n < c then some (dueAt start pause lasting n) else none
  /-- A call is over, and the next wait as well, before a later one begins. -/
  apart : ∀ (i j : Nat) (m m' : Made), i < j → made[i]? = some m → made[j]? = some m' →
    m.begins + lasting i + pause ≤ m'.begins
  /-- The signal has fired before the run. -/
  late : c ≤ start → r.ending = .returned start
  /-- It fires in a wait. -/
  waiting : ∀ n, waitFrom start pause lasting n ≤ c → c < dueAt start pause lasting n →
    r.ending = .returned c
  /-- It fires in a call. -/
  working : ∀ n, dueAt start pause lasting n < c → c ≤ waitFrom start pause lasting (n + 1) →
    r.ending = .returned (waitFrom start pause lasting (n + 1))

section

variable {s : Service} {interval : Duration} {calls now c pause start : Nat} {signal : Signal}
  {made : List Made} {r : Result} {lasting : Nat → Nat}

theorem dueAt_eq (n : Nat) :
    dueAt start pause lasting n = waitFrom start pause lasting n + pause := by
  simp only [dueAt, waitFrom, Nat.succ_mul]
  omega

theorem waitFrom_succ (n : Nat) :
    waitFrom start pause lasting (n + 1) = dueAt start pause lasting n + lasting n := by
  simp only [dueAt, waitFrom, Finset.sum_range_succ]
  omega

/-- After the first call the timetable is that of the other calls. -/
theorem waitFrom_shift (n : Nat) :
    waitFrom (start + pause + lasting 0) pause (fun i => lasting (i + 1)) n =
      waitFrom start pause lasting (n + 1) := by
  simp only [waitFrom, Finset.sum_range_succ', Nat.succ_mul]
  omega

theorem dueAt_shift (n : Nat) :
    dueAt (start + pause + lasting 0) pause (fun i => lasting (i + 1)) n =
      dueAt start pause lasting (n + 1) := by
  rw [dueAt_eq, dueAt_eq, waitFrom_shift]

theorem waitFrom_zero : waitFrom start pause lasting 0 = start := by
  rw [waitFrom, Nat.zero_mul, Finset.sum_range_zero, Nat.add_zero, Nat.add_zero]

theorem waitFrom_mono {i j : Nat} (le : i ≤ j) :
    waitFrom start pause lasting i ≤ waitFrom start pause lasting j := by
  induction le with
  | refl => exact Nat.le_refl _
  | step _ ih =>
    rw [waitFrom_succ, dueAt_eq]
    omega

theorem dueAt_mono {i j : Nat} (le : i ≤ j) :
    dueAt start pause lasting i ≤ dueAt start pause lasting j := by
  rw [dueAt_eq, dueAt_eq]
  exact Nat.add_le_add_right (waitFrom_mono le) pause

theorem Rounds.becomes (rounds : Rounds s interval calls now signal made r) :
    signal.Becomes now r.signal := by
  induction rounds with
  | stopped => exact .refl _ _
  | @broken calls now signal m call =>
    subst call
    have waited : now ≤ now + interval.pauseMillis := Nat.le_add_right _ _
    exact (Signal.Becomes.refl signal now).trans waited (s.work.giving ..)
  | @again calls now done signal m made r call quiet returns later ih =>
    subst call
    have waited : now ≤ now + interval.pauseMillis := Nat.le_add_right _ _
    have called : now + interval.pauseMillis ≤ done :=
      s.work.onward calls _ signal done (congrArg Ending.instant? returns)
    have given : signal.Becomes now (s.work.call calls (now + interval.pauseMillis) signal).signal :=
      (Signal.Becomes.refl signal now).trans waited (s.work.giving ..)
    exact given.trans (by omega) ih

/-- The calls of the rounds are counted on. -/
theorem Rounds.number (rounds : Rounds s interval calls now signal made r) {n : Nat} {m : Made}
    (found : made[n]? = some m) : m.number = calls + n := by
  induction rounds generalizing n with
  | stopped => cases found
  | broken call =>
    cases n with
    | zero =>
      obtain rfl := Option.some.inj found
      rw [call]
      rfl
    | succ n => cases found
  | again call quiet returns later ih =>
    cases n with
    | zero =>
      obtain rfl := Option.some.inj found
      rw [call]
      rfl
    | succ n =>
      have next := ih found
      omega

/-- The rounds of a service whose calls return make the calls that are due before the signal, and
end with the latest of them or with the signal. -/
theorem Rounds.scheduled (rounds : Rounds s interval calls now signal made r)
    (takes : s.Takes lasting made) (fires : r.signal.firesAt = some c)
    (apart : ∀ n, c ≠ dueAt now interval.pauseMillis lasting n) :
    (∀ n : Nat, made[n]?.map (·.begins) =
        if dueAt now interval.pauseMillis lasting n < c then
          some (dueAt now interval.pauseMillis lasting n)
        else none) ∧
      r.ending = .returned (max c (waitFrom now interval.pauseMillis lasting made.length)) := by
  induction rounds generalizing lasting with
  | @stopped calls now d signal fires' early =>
    obtain rfl : d = c := Option.some.inj (fires'.symm.trans fires)
    constructor
    · intro n
      have first : dueAt now interval.pauseMillis lasting 0 ≤
          dueAt now interval.pauseMillis lasting n := dueAt_mono (Nat.zero_le n)
      rw [dueAt_eq, waitFrom_zero] at first
      rw [if_neg (by omega)]
      rfl
    · rw [List.length_nil, waitFrom_zero]
  | broken call quiet breaks =>
    exact absurd (takes 0 _ rfl) (breaks _)
  | @again calls now done signal m made r call quiet returns later ih =>
    subst call
    have same : done = now + interval.pauseMillis + lasting 0 := by
      have taken := takes 0 _ rfl
      rw [returns] at taken
      exact Service.Ending.returned.inj taken
    subst same
    have others : s.Takes (fun i => lasting (i + 1)) made := fun n => takes (n + 1)
    have begun : now + interval.pauseMillis < c := by
      -- the signal fires after the call begins, whoever gives it
      have called := s.work.giving calls (now + interval.pauseMillis) signal
      have since := (called.trans (Nat.le_add_right _ _) later.becomes).le_of_fires quiet fires
      have different := apart 0
      rw [dueAt_eq, waitFrom_zero] at different
      omega
    obtain ⟨begins, ends⟩ := ih others fires (fun n => by rw [dueAt_shift]; exact apart (n + 1))
    constructor
    · intro n
      cases n with
      | zero =>
        rw [dueAt_eq, waitFrom_zero, if_pos begun]
        rfl
      | succ n =>
        rw [List.getElem?_cons_succ, begins n, dueAt_shift]
    · rw [List.length_cons, ← waitFrom_shift]
      exact ends

/-- How many calls are made up to an instant in the wait for the `n`th one. -/
theorem length_of_begins
    (begins : ∀ n : Nat, made[n]?.map (·.begins) =
      if dueAt start pause lasting n < c then some (dueAt start pause lasting n) else none)
    {n : Nat} (passed : n = 0 ∨ dueAt start pause lasting (n - 1) < c)
    (ahead : c ≤ dueAt start pause lasting n) : made.length = n := by
  apply Nat.le_antisymm
  · have unmade := begins n
    rw [if_neg (by omega), Option.map_eq_none_iff] at unmade
    exact List.getElem?_eq_none_iff.1 unmade
  · rcases passed with rfl | before
    · exact Nat.zero_le _
    · have last := begins (n - 1)
      rw [if_pos before] at last
      obtain ⟨m, found, -⟩ := Option.map_eq_some_iff.1 last
      have within := (List.getElem?_eq_some_iff.1 found).1
      omega

theorem Rounds.onSchedule (rounds : Rounds s interval calls start signal made r)
    (takes : s.Takes lasting made) (fires : r.signal.firesAt = some c)
    (untied : ∀ n, c ≠ dueAt start interval.pauseMillis lasting n) :
    OnSchedule interval.pauseMillis start c lasting made r := by
  obtain ⟨begins, ends⟩ := rounds.scheduled takes fires untied
  have begun {n : Nat} {m : Made} (found : made[n]? = some m) :
      m.begins = dueAt start interval.pauseMillis lasting n := by
    have told := begins n
    rw [found] at told
    split at told
    · exact Option.some.inj told
    · cases told
  constructor
  case begins => exact begins
  case apart =>
    intro i j m m' before found found'
    have later : waitFrom start interval.pauseMillis lasting (i + 1) ≤
        waitFrom start interval.pauseMillis lasting j := waitFrom_mono before
    rw [waitFrom_succ] at later
    rw [begun found, begun found', dueAt_eq j]
    omega
  case late =>
    intro late
    have first : c ≤ dueAt start interval.pauseMillis lasting 0 := by
      rw [dueAt_eq, waitFrom_zero]
      omega
    rw [ends, length_of_begins begins (.inl rfl) first, waitFrom_zero, Nat.max_eq_right late]
  case waiting =>
    intro n since ahead
    have passed : n = 0 ∨ dueAt start interval.pauseMillis lasting (n - 1) < c := by
      cases n with
      | zero => exact .inl rfl
      | succ n =>
        right
        have different := untied n
        rw [waitFrom_succ] at since
        show dueAt start interval.pauseMillis lasting n < c
        omega
    rw [ends, length_of_begins begins passed (Nat.le_of_lt ahead), Nat.max_eq_left since]
  case working =>
    intro n begun passed
    have ahead : c ≤ dueAt start interval.pauseMillis lasting (n + 1) := by
      rw [dueAt_eq]
      omega
    rw [ends, length_of_begins begins (n := n + 1) (.inr begun) ahead, Nat.max_eq_right passed]

theorem Runs.rounds (runs : s.Runs calls now signal made r) (every : s.interval = some interval) :
    Rounds s interval calls now signal made r := by
  cases runs with
  | routine once => exact nomatch every.symm.trans once
  | periodic every' rounds =>
    obtain rfl := Option.some.inj (every.symm.trans every')
    exact rounds

end

/-- A run of a periodic service under a signal that is given from outside at some instant. It fires
then, or sooner when the work gives it. For any time that the calls take, a call is made at the end
of each wait that is over before the signal, and at no other instant: the first one an interval
after the start, each other one an interval after the end of the one before it. The run returns when
the signal fires if it waits then, and otherwise at the end of the call that is in progress. -/
theorem works_on_schedule (s : Service) (interval : Duration) (every : s.interval = some interval)
    (positive : 0 < interval.toNanos) (calls start given : Nat) :
    let r := s.run calls start ⟨some given⟩
    ∃ made c, s.Runs calls start ⟨some given⟩ made r ∧ r.signal = ⟨some c⟩ ∧ c ≤ given ∧
      (s.LeavesSignal → c = given) ∧
      (interval.Representable → interval.pauseMillis * 1000000 = interval.toNanos) ∧
      (∀ (n : Nat) (m : Made), made[n]? = some m → m.number = calls + n) ∧
      ∀ lasting, s.Takes lasting made →
        (∀ n, c ≠ dueAt start interval.pauseMillis lasting n) →
        OnSchedule interval.pauseMillis start c lasting made r := by
  intro r
  have paced : s.Paced := by
    intro d same
    rw [every] at same
    exact Option.some.inj same ▸ positive
  obtain ⟨made, runs⟩ : ∃ made, s.Runs calls start ⟨some given⟩ made r :=
    s.run_runs paced rfl calls start
  obtain ⟨c, no_later, fires⟩ := (s.run_becomes calls start ⟨some given⟩).fires_no_later rfl
  have rounds := runs.rounds every
  refine ⟨made, c, runs, ?_, no_later, ?_, Duration.pauseMillis_of_representable,
    fun _ _ => rounds.number, fun lasting takes => rounds.onSchedule takes fires⟩
  · show Signal.mk r.signal.firesAt = _
    rw [fires]
  · intro leaves
    rw [leaves.run] at fires
    exact (Option.some.inj fires).symm

/-- A second longer each time. -/
def ripeningTime (n : Nat) : Nat := (n + 1) * 1000

/-- It works at intervals of five seconds and does not mind the stop signal. -/
def ripening : Service where
  name := "ripening"
  code := 55
  interval := some (.ofSeconds 5)
  minimum := .zero
  work := scripted fun n => { sleeps := ripeningTime n, heedsStop := false }

/-- The third call is in progress when the signal fires, and it is the last one. -/
theorem works_on_schedule_ripening :
    let r := ripening.run 0 0 ⟨some 20000⟩
    ripening.interval = some (.ofSeconds 5) ∧ 0 < (Duration.ofSeconds 5).toNanos ∧
      ∃ made, ripening.Runs 0 0 ⟨some 20000⟩ made r ∧ ripening.Takes ripeningTime made ∧
        (∀ n, 20000 ≠ dueAt 0 5000 ripeningTime n) ∧
        made[2]?.map (·.begins) = some 18000 ∧ made[3]?.map (·.begins) = none ∧
        r.ending = .returned 21000 := by
  intro r
  have every : ripening.interval = some (.ofSeconds 5) := rfl
  have positive : 0 < (Duration.ofSeconds 5).toNanos := by decide
  obtain ⟨made, c, runs, -, -, only, -, number, schedule⟩ :=
    works_on_schedule ripening (.ofSeconds 5) every positive 0 0 20000
  obtain rfl : c = 20000 := only (leaves_scripted (fun _ => by simp) rfl)
  have takes : ripening.Takes ripeningTime made := by
    intro n m found
    have count := number n m found
    rw [Nat.zero_add] at count
    rw [← count]
    rfl
  have untied : ∀ n, 20000 ≠ dueAt 0 5000 ripeningTime n := by
    intro n
    match n with
    | 0 | 1 | 2 => decide
    | n + 3 =>
      have fourth : dueAt 0 5000 ripeningTime 3 ≤ dueAt 0 5000 ripeningTime (n + 3) :=
        dueAt_mono (Nat.le_add_left 3 n)
      have known : dueAt 0 5000 ripeningTime 3 = 26000 := by decide
      omega
  have scheduled := schedule ripeningTime takes untied
  exact ⟨every, positive, made, runs, takes, untied, (scheduled.begins 2).trans (by decide),
    (scheduled.begins 3).trans (by decide), scheduled.working 2 (by decide) (by decide)⟩

end Service

end ChannelAgent
