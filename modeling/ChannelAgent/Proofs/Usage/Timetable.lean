import ChannelAgent.Proofs.Usage.History

set_option autoImplicit false

namespace ChannelAgent.Usage

open History

/-- The daily task performs RUNNING at an instant, and this comes of it. -/
abbrev Performance := Nat × Outcome

def Ledger.told (performances : List Performance) : Ledger :=
  .joined (performances.map fun p => .ofOutcome p.1 p.2)

def Logger.noted (l : Logger) (performances : List Performance) : Logger :=
  performances.foldl (fun l p => l.noteCall .running p.1) l

namespace Desk

def running (d : Desk) : Performance :=
  (d.now, Logger.quiet .running (d.logger.outcome d.delivery .running ""))

/-- The desk after the daily task has performed RUNNING at an instant. -/
def performed (d : Desk) (now : Nat) : Desk :=
  { d with
    now
    logger := d.logger.noteCall .running now
    daily := .waiting (now + dailyPeriod) }

/-- What the daily task performs in a turn while nothing is due. -/
def opening (d : Desk) : List Performance := if d.daily = .spawned then [d.running] else []

/-- What the daily task performs by an instant, at most `n` times. -/
def performances : (n : Nat) → (until_ : Nat) → Desk → List Performance
  | 0, _, _ => []
  | n + 1, until_, d =>
    match d.daily with
    | .waiting next =>
      if next ≤ until_ then
        { d with now := next }.running :: performances n until_ (d.performed next)
      else []
    | _ => []

/-- What the daily task performs when it is given way to and time passes. -/
def performsIn (d : Desk) (ms : Nat) : List Performance :=
  d.opening ++ d.turn.2.performances (ms / dailyPeriod + 1) (d.now + ms)

end Desk

def periods (first n : Nat) : List Nat := (List.range n).map fun k => first + k * dailyPeriod

/-- The instants of a task that started at `first`, up to another instant. -/
def timetable (first until_ : Nat) : List Nat :=
  periods first ((until_ - first) / dailyPeriod + 1)

def nextDue (first now : Nat) : Nat := first + ((now - first) / dailyPeriod + 1) * dailyPeriod

/-- How often a task that is due at `next` performs by an instant. -/
def dueBy (next until_ : Nat) : Nat := (until_ + dailyPeriod - next) / dailyPeriod

section

variable {d : Desk} {first until_ next now n t : Nat}

theorem periods_add (first m n : Nat) :
    periods first (m + n) = periods first m ++ periods (first + m * dailyPeriod) n := by
  unfold periods
  rw [List.range_add, List.map_append, List.map_map]
  congr 1
  apply List.map_congr_left
  intro k _
  rw [Function.comp_apply, Nat.add_mul, Nat.add_assoc]

theorem periods_succ (first n : Nat) :
    periods first (n + 1) = first :: periods (first + dailyPeriod) n := by
  rw [Nat.add_comm, periods_add, Nat.one_mul]
  rfl

theorem mem_timetable :
    t ∈ timetable first until_ ↔
      t = first ∨ ∃ k, 0 < k ∧ t = first + k * dailyPeriod ∧ t ≤ until_ := by
  have positive : 0 < dailyPeriod := by decide
  simp only [timetable, periods, List.mem_map, List.mem_range, Nat.lt_succ_iff,
    Nat.le_div_iff_mul_le positive]
  constructor
  · rintro ⟨k, within, rfl⟩
    by_cases start : k = 0
    · subst start
      exact .inl (by rw [Nat.zero_mul, Nat.add_zero])
    · have later : 0 < k * dailyPeriod := Nat.mul_pos (Nat.pos_of_ne_zero start) positive
      exact .inr ⟨k, Nat.pos_of_ne_zero start, rfl, by omega⟩
  · rintro (rfl | ⟨k, -, rfl, within⟩)
    · exact ⟨0, by rw [Nat.zero_mul]; exact Nat.zero_le _, by rw [Nat.zero_mul, Nat.add_zero]⟩
    · exact ⟨k, by omega, rfl⟩

theorem timetable_increasing (first until_ : Nat) : (timetable first until_).Pairwise (· < ·) := by
  rw [timetable, periods, List.pairwise_map]
  apply List.pairwise_lt_range.imp
  intro j k before
  unfold dailyPeriod
  omega

/-- Up to its start a task performs just once. -/
theorem timetable_start (early : until_ ≤ first) : timetable first until_ = [first] := by
  rw [timetable, Nat.sub_eq_zero_of_le early]
  rfl

theorem nextDue_self (now : Nat) : nextDue now now = now + dailyPeriod := by
  rw [nextDue, Nat.sub_self, Nat.zero_div, Nat.zero_add, Nat.one_mul]

theorem now_lt_nextDue (first now : Nat) : now < nextDue first now := by
  unfold nextDue dailyPeriod
  omega

theorem dueBy_nextDue (later : now ≤ until_) :
    (until_ - first) / dailyPeriod + 1 =
      (now - first) / dailyPeriod + 1 + dueBy (nextDue first now) until_ := by
  unfold dueBy nextDue dailyPeriod
  omega

/-- After an instant the timetable goes on from the next time that is due. -/
theorem timetable_append (later : now ≤ until_) :
    timetable first now ++ periods (nextDue first now) (dueBy (nextDue first now) until_) =
      timetable first until_ := by
  rw [timetable, timetable, dueBy_nextDue later]
  exact (periods_add ..).symm

theorem nextDue_later (later : now ≤ until_) :
    nextDue first now + dueBy (nextDue first now) until_ * dailyPeriod = nextDue first until_ := by
  rw [nextDue, Nat.add_assoc, ← Nat.add_mul]
  show _ + (_ + dueBy (nextDue first now) until_) * _ = _
  rw [← dueBy_nextDue later]
  rfl

/-- A task that is not due leaves everything as it is. -/
theorem runDaily_still (still : ∀ next, d.daily = .waiting next → ¬ next ≤ until_) :
    d.runDaily n until_ = ({}, d) ∧ d.performances n until_ = [] := by
  cases n with
  | zero => exact ⟨rfl, rfl⟩
  | succ n =>
    cases daily : d.daily with
    | waiting next =>
      simp only [Desk.runDaily, Desk.performances, daily, if_neg (still next daily), and_self]
    | notStarted | spawned | ended => simp only [Desk.runDaily, Desk.performances, daily, and_self]

theorem runDaily_due (waits : d.daily = .waiting next) (due : next ≤ until_) :
    d.runDaily (n + 1) until_ =
      (.ofOutcome next { d with now := next }.running.2 ++ ((d.performed next).runDaily n until_).1,
        ((d.performed next).runDaily n until_).2) := by
  simp only [Desk.runDaily, waits, if_pos due]
  rfl

theorem performances_due (waits : d.daily = .waiting next) (due : next ≤ until_) :
    d.performances (n + 1) until_ =
      { d with now := next }.running :: (d.performed next).performances n until_ := by
  simp only [Desk.performances, waits, if_pos due]

/-- As time passes the task leaves behind what it performs. -/
theorem runDaily_leaves (d : Desk) (n until_ : Nat) :
    (d.runDaily n until_).1 = .told (d.performances n until_) ∧
      (d.runDaily n until_).2.logger = d.logger.noted (d.performances n until_) := by
  induction n generalizing d with
  | zero => exact ⟨rfl, rfl⟩
  | succ n ih =>
    by_cases some_due : ∃ next, d.daily = .waiting next ∧ next ≤ until_
    · obtain ⟨next, waits, due⟩ := some_due
      obtain ⟨ledger, logger⟩ := ih (d.performed next)
      rw [performances_due waits due, runDaily_due waits due, ledger, logger]
      exact ⟨rfl, rfl⟩
    · have still : ∀ next, d.daily = .waiting next → ¬ next ≤ until_ :=
        fun next waits due => some_due ⟨next, waits, due⟩
      obtain ⟨left, nothing⟩ := runDaily_still (n := n + 1) still
      rw [left, nothing]
      exact ⟨rfl, rfl⟩

/-- With enough fuel a waiting task performs whenever it is due. -/
theorem runDaily_waiting (waits : d.daily = .waiting next) (enough : dueBy next until_ ≤ n) :
    (d.performances n until_).map (·.1) = periods next (dueBy next until_) ∧
      (d.runDaily n until_).2.daily = .waiting (next + dueBy next until_ * dailyPeriod) := by
  induction n generalizing d next with
  | zero =>
    have none : dueBy next until_ = 0 := Nat.le_zero.1 enough
    rw [none, Nat.zero_mul, Nat.add_zero]
    exact ⟨rfl, waits⟩
  | succ n ih =>
    by_cases due : next ≤ until_
    · -- the task performs once and waits for the next time
      have more : dueBy next until_ = dueBy (next + dailyPeriod) until_ + 1 := by
        unfold dueBy dailyPeriod
        omega
      obtain ⟨instants, daily⟩ := ih (d := d.performed next) rfl (by omega)
      rw [performances_due waits due, runDaily_due waits due, more, periods_succ]
      constructor
      · rw [List.map_cons, instants]
        rfl
      · rw [daily, Nat.succ_mul, Nat.add_assoc, Nat.add_comm dailyPeriod]
    · have none : dueBy next until_ = 0 := by
        unfold dueBy dailyPeriod
        omega
      have still : ∀ other, d.daily = .waiting other → ¬ other ≤ until_ := by
        intro other waits'
        cases waits.symm.trans waits'
        exact due
      obtain ⟨left, nothing⟩ := runDaily_still (n := n + 1) still
      rw [left, nothing, none, Nat.zero_mul, Nat.add_zero]
      exact ⟨rfl, waits⟩

/-- The fuel of a while is enough. -/
theorem dueBy_le (ms : Nat) (later : now < next) : dueBy next (now + ms) ≤ ms / dailyPeriod + 1 := by
  unfold dueBy dailyPeriod
  omega

theorem turn_spawned (spawned : d.daily = .spawned) :
    d.turn =
      (.ofOutcome d.now d.running.2,
        { d with
          logger := d.logger.noteCall .running d.now
          daily := if d.dailyStopped then .ended d.now else .waiting (d.now + dailyPeriod) }) := by
  rw [Desk.turn, spawned]
  rfl

theorem turn_waiting (waits : d.daily = .waiting next) :
    d.turn = ({}, if d.dailyStopped then { d with daily := .ended d.now } else d) := by
  rw [Desk.turn, waits]
  cases d.dailyStopped <;> rfl

theorem turn_still (new : d.daily ≠ .spawned) (still : ∀ next, d.daily ≠ .waiting next) :
    d.turn = ({}, d) := by
  cases daily : d.daily with
  | spawned => exact absurd daily new
  | waiting next => exact absurd daily (still next)
  | notStarted | ended => simp only [Desk.turn, daily]

/-- A turn leaves behind what the task performs in it. -/
theorem turn_leaves (d : Desk) :
    d.turn.1 = .told d.opening ∧ d.turn.2.logger = d.logger.noted d.opening := by
  by_cases spawned : d.daily = .spawned
  · rw [turn_spawned spawned, Desk.opening, if_pos spawned]
    refine ⟨?_, rfl⟩
    simp [Ledger.told, Ledger.joined, Ledger.ofOutcome, Desk.running]
  · rw [Desk.opening, if_neg spawned]
    cases daily : d.daily with
    | spawned => exact absurd daily spawned
    | waiting next =>
      rw [turn_waiting daily]
      cases d.dailyStopped <;> exact ⟨rfl, rfl⟩
    | notStarted | ended =>
      rw [turn_still spawned (by simp [daily])]
      exact ⟨rfl, rfl⟩

theorem told_append (some more : List Performance) :
    Ledger.told (some ++ more) = .told some ++ .told more := by
  simp only [Ledger.told, Ledger.joined, List.map_append, List.flatMap_append]
  rfl

theorem advance_eq (d : Desk) (ms : Nat) :
    d.advance ms =
      (d.turn.1 ++ (d.turn.2.runDaily (ms / dailyPeriod + 1) (d.now + ms)).1,
        { (d.turn.2.runDaily (ms / dailyPeriod + 1) (d.now + ms)).2 with now := d.now + ms }) :=
  rfl

/-- Giving way to the task and letting time pass leaves behind what the task performs then. -/
theorem advance_leaves (d : Desk) (ms : Nat) :
    (d.advance ms).1 = .told (d.performsIn ms) ∧
      (d.advance ms).2.logger = d.logger.noted (d.performsIn ms) := by
  obtain ⟨first, logger⟩ := turn_leaves d
  obtain ⟨ledger, later⟩ := runDaily_leaves d.turn.2 (ms / dailyPeriod + 1) (d.now + ms)
  have noted : d.logger.noted (d.performsIn ms) =
      (d.logger.noted d.opening).noted
        (d.turn.2.performances (ms / dailyPeriod + 1) (d.now + ms)) :=
    List.foldl_append
  rw [advance_eq, noted, Desk.performsIn, told_append]
  exact ⟨by rw [first, ledger], by rw [later, logger]⟩

/-- A task that waits after its turn goes on as it is due. -/
theorem advance_waiting (waits : d.turn.2.daily = .waiting next) (later : d.now < next) (ms : Nat) :
    (d.advance ms).2.daily = .waiting (next + dueBy next (d.now + ms) * dailyPeriod) ∧
      (d.performsIn ms).map (·.1) =
        d.opening.map (·.1) ++ periods next (dueBy next (d.now + ms)) := by
  obtain ⟨instants, daily⟩ := runDaily_waiting waits (dueBy_le ms later)
  rw [advance_eq, Desk.performsIn, List.map_append, instants]
  exact ⟨daily, rfl⟩

/-- A task that does not wait for anything lets time pass. -/
theorem advance_still (still : ∀ next, d.turn.2.daily ≠ .waiting next) (ms : Nat) :
    (d.advance ms).2 = { d.turn.2 with now := d.now + ms } ∧ d.performsIn ms = d.opening := by
  have none_due : ∀ next, d.turn.2.daily = .waiting next → ¬ next ≤ d.now + ms :=
    fun next waits _ => still next waits
  obtain ⟨left, nothing⟩ := runDaily_still (n := ms / dailyPeriod + 1) none_due
  rw [advance_eq, Desk.performsIn, left, nothing, List.append_nil]
  exact ⟨rfl, rfl⟩

/-- The task does not see to its own signal, and not to how reports are taken. -/
theorem frame_turn (d : Desk) :
    d.turn.2.dailyStopped = d.dailyStopped ∧ d.turn.2.delivery = d.delivery := by
  cases daily : d.daily with
  | spawned =>
    rw [turn_spawned daily]
    exact ⟨rfl, rfl⟩
  | waiting next =>
    rw [turn_waiting daily]
    split <;> exact ⟨rfl, rfl⟩
  | notStarted | ended =>
    rw [turn_still (by simp [daily]) (by simp [daily])]
    exact ⟨rfl, rfl⟩

theorem frame_runDaily (d : Desk) (n until_ : Nat) :
    (d.runDaily n until_).2.dailyStopped = d.dailyStopped ∧
      (d.runDaily n until_).2.delivery = d.delivery := by
  induction n generalizing d with
  | zero => exact ⟨rfl, rfl⟩
  | succ n ih =>
    unfold Desk.runDaily
    split
    · split
      · exact ih _
      · exact ⟨rfl, rfl⟩
    · exact ⟨rfl, rfl⟩

theorem frame_advance (d : Desk) (ms : Nat) :
    (d.advance ms).2.dailyStopped = d.dailyStopped ∧ (d.advance ms).2.delivery = d.delivery := by
  obtain ⟨stopped, delivery⟩ := frame_turn d
  obtain ⟨stopped', delivery'⟩ := frame_runDaily d.turn.2 (ms / dailyPeriod + 1) (d.now + ms)
  rw [advance_eq]
  exact ⟨stopped'.trans stopped, delivery'.trans delivery⟩

/-- What comes of RUNNING at two desks whose loggers make the same of every status. -/
theorem running_congr {d' : Desk} (logger : d'.logger.outcome = d.logger.outcome)
    (delivery : d'.delivery = d.delivery) : d'.running.2 = d.running.2 := by
  rw [Desk.running, Desk.running, logger, delivery]

/-- Noting a call changes nothing about what comes of a status. -/
theorem outcome_noteCall (l : Logger) (noted : Status) (now : Nat) :
    (l.noteCall noted now).outcome = l.outcome := by
  unfold Logger.noteCall
  split <;> rfl

theorem outcome_noted (l : Logger) (done : List Performance) :
    (l.noted done).outcome = l.outcome := by
  induction done generalizing l with
  | nil => rfl
  | cons p done ih => exact (ih _).trans (outcome_noteCall l .running p.1)

/-- All that the task performs while time passes comes to the same. -/
theorem alike_performances (d : Desk) (n until_ : Nat) :
    ∀ p ∈ d.performances n until_, p.2 = d.running.2 := by
  induction n generalizing d with
  | zero => exact nofun
  | succ n ih =>
    unfold Desk.performances
    split
    · split
      · rename_i next _ _
        refine List.forall_mem_cons.2 ⟨rfl, fun p found => (ih _ p found).trans ?_⟩
        exact running_congr (outcome_noteCall d.logger .running next) rfl
      · exact nofun
    · exact nofun

theorem alike_performsIn (d : Desk) (ms : Nat) : ∀ p ∈ d.performsIn ms, p.2 = d.running.2 := by
  intro p found
  rcases List.mem_append.1 found with first | later
  · unfold Desk.opening at first
    split at first
    · rw [List.mem_singleton.1 first]
    · cases first
  · refine (alike_performances _ _ _ p later).trans (running_congr ?_ (frame_turn d).2)
    rw [(turn_leaves d).2]
    exact outcome_noted d.logger _

theorem running_advance (d : Desk) (ms : Nat) : (d.advance ms).2.running.2 = d.running.2 := by
  refine running_congr ?_ (frame_advance d ms).2
  rw [(advance_leaves d ms).2]
  exact outcome_noted d.logger _

end

/-- Two histories that gave the same properties last. -/
structure Alike (history other : List Call) : Prop where
  agent : latest? Call.agent? history = latest? Call.agent? other
  cloud : latest? Call.cloud? history = latest? Call.cloud? other
  platform : latest? Call.platform? history = latest? Call.platform? other

/-- The agent reports, its location is set and its project is not excluded. -/
def Sendable (exclusions : List String) (history : List Call) : Prop :=
  Reporting history ∧ place history ≠ "" ∧ (cloud history).numericProjectId ∉ exclusions

/-- A performance makes a report just if the properties that were set last allow it, and by them. -/
def Sent (exclusions : List String) (set : List Call) (p : Performance) : Prop :=
  ∀ r, p.2.report = some r ↔ Sendable exclusions set ∧ r = report set .running ""

/-- A logger holds the properties that some calls have set last. -/
def Recalls (exclusions : List String) (set : List Call) (l : Logger) : Prop :=
  ∃ history, Remembers exclusions history l ∧ Alike history set

section

variable {exclusions : List String} {history set : List Call} {l : Logger} {d : Desk}
  {n until_ : Nat}

theorem Alike.sendable (alike : Alike history set) :
    Sendable exclusions history ↔ Sendable exclusions set := by
  unfold Sendable Reporting place History.platform History.cloud
  rw [alike.agent, alike.cloud, alike.platform]

theorem Alike.report_eq (alike : Alike history set) (status : Status) (value : String) :
    report history status value = report set status value := by
  unfold report address History.agent History.platform History.cloud
  rw [alike.agent, alike.cloud, alike.platform]

/-- A status that is reported sets nothing. -/
theorem Recalls.note (recalls : Recalls exclusions set l) (status : Status) (now : Nat) :
    Recalls exclusions set (l.noteCall status now) := by
  obtain ⟨history, knows, alike⟩ := recalls
  refine ⟨_, knows.note status "" now .sure, ?_⟩
  constructor
  · exact (latest?_concat ..).trans alike.agent
  · exact (latest?_concat ..).trans alike.cloud
  · exact (latest?_concat ..).trans alike.platform

theorem Recalls.give (recalls : Recalls exclusions set d.logger) (call : Call) :
    Recalls exclusions (set ++ [call]) (d.perform call).2.2.logger := by
  obtain ⟨history, knows, alike⟩ := recalls
  refine ⟨_, knows.perform call, ?_⟩
  constructor
  · rw [latest?_concat, latest?_concat, alike.agent]
  · rw [latest?_concat, latest?_concat, alike.cloud]
  · rw [latest?_concat, latest?_concat, alike.platform]

theorem Recalls.noted (recalls : Recalls exclusions set l) (done : List Performance) :
    Recalls exclusions set (l.noted done) := by
  induction done generalizing l with
  | nil => exact recalls
  | cons p done ih => exact ih (recalls.note .running p.1)

/-- A report is made just if the properties in force allow it, and by those properties. -/
theorem Recalls.report_iff (recalls : Recalls exclusions set l) (delivery : Delivery)
    (status : Status) (value : String) (r : Request) :
    (l.outcome delivery status value).report = some r ↔
      Sendable exclusions set ∧ r = report set status value := by
  obtain ⟨history, knows, alike⟩ := recalls
  rw [← alike.sendable, ← alike.report_eq, Sendable]
  rcases knows.outcome_cases delivery status value with
    ⟨off, -, none⟩ | ⟨-, missing, -, none⟩ | ⟨-, -, excluded, -, none⟩ |
    ⟨reporting, placed, included, -, some⟩
  · simp [off, none]
  · simp [missing, none]
  · simp [excluded, none]
  · simp [reporting, placed, included, some, eq_comm]

theorem Recalls.sent (recalls : Recalls exclusions set d.logger) :
    Sent exclusions set d.running := by
  intro r
  rw [Desk.running, Logger.report_quiet]
  exact recalls.report_iff ..

/-- What the task performs while time passes it performs under the same properties. -/
theorem Recalls.all_sent (recalls : Recalls exclusions set d.logger) :
    ∀ p ∈ d.performances n until_, Sent exclusions set p := by
  induction n generalizing d with
  | zero => exact nofun
  | succ n ih =>
    unfold Desk.performances
    split
    · split
      · rw [List.forall_mem_cons]
        constructor
        · exact Recalls.sent (d := { d with now := _ }) recalls
        · exact ih (recalls.note .running _)
      · exact nofun
    · exact nofun

theorem Recalls.all_sent_in (recalls : Recalls exclusions set d.logger) (ms : Nat) :
    ∀ p ∈ d.performsIn ms, Sent exclusions set p := by
  intro p found
  rcases List.mem_append.1 found with first | later
  · unfold Desk.opening at first
    split at first
    · rw [List.mem_singleton.1 first]
      exact recalls.sent
    · cases first
  · have kept : Recalls exclusions set d.turn.2.logger := by
      rw [(turn_leaves d).2]
      exact recalls.noted _
    exact kept.all_sent p later

end

end ChannelAgent.Usage
