import ChannelAgent.Proofs.Usage.Timetable
import ChannelAgent.Usage.Shared

set_option autoImplicit false

namespace ChannelAgent.Usage

open History

namespace Use

def lasts : Use → Nat
  | .pass ms => ms
  | _ => 0

/-- The signal with which a use calls for the daily task. -/
def asks? : Use → Option Nat
  | .daily signal => some signal
  | _ => none

def fires? : Use → Option Nat
  | .fire signal => some signal
  | _ => none

def gives? : Use → Option Call
  | .setAgent agent => some (.setAgent agent)
  | .setCloud cloud => some (.setCloud cloud)
  | .setProperties integration enabled cloud => some (.setProperties integration enabled cloud)
  | .setPlatform platform => some (.setPlatform platform)
  | _ => none

end Use

def clock : List Use → Nat
  | [] => 0
  | u :: uses => u.lasts + clock uses

def stamped (now : Nat) : List Use → List (Nat × Use)
  | [] => []
  | u :: uses => (now, u) :: stamped (now + u.lasts) uses

/-- The instant and the signal of the first call for the daily task. -/
def firstCall? (uses : List Use) : Option (Nat × Nat) :=
  (stamped 0 uses).findSome? fun u => u.2.asks?.map fun signal => (u.1, signal)

/-- The instant at which a signal fires first. -/
def firedAt? (signal : Nat) (uses : List Use) : Option Nat :=
  (stamped 0 uses).findSome? fun u => if u.2.fires? = some signal then some u.1 else none

def given (uses : List Use) : List Call := uses.filterMap Use.gives?

section

variable {uses : List Use} {u : Use} {signal first now t : Nat}

theorem clock_concat (uses : List Use) (u : Use) : clock (uses ++ [u]) = clock uses + u.lasts := by
  induction uses with
  | nil => exact Nat.add_comm ..
  | cons v uses ih => rw [List.cons_append, clock, clock, ih, Nat.add_assoc]

theorem stamped_concat (now : Nat) (uses : List Use) (u : Use) :
    stamped now (uses ++ [u]) = stamped now uses ++ [(now + clock uses, u)] := by
  induction uses generalizing now with
  | nil => rfl
  | cons v uses ih =>
    rw [List.cons_append, stamped, ih, clock, Nat.add_assoc]
    rfl

theorem firstCall?_concat (uses : List Use) (u : Use) :
    firstCall? (uses ++ [u]) =
      (firstCall? uses).or (u.asks?.map fun signal => (clock uses, signal)) := by
  rw [firstCall?, stamped_concat, List.findSome?_append, Nat.zero_add]
  congr 1
  cases u <;> rfl

theorem firedAt?_concat (signal : Nat) (uses : List Use) (u : Use) :
    firedAt? signal (uses ++ [u]) =
      (firedAt? signal uses).or (if u.fires? = some signal then some (clock uses) else none) := by
  rw [firedAt?, stamped_concat, List.findSome?_append, Nat.zero_add, List.findSome?_singleton]
  rfl

theorem given_concat (uses : List Use) (u : Use) :
    given (uses ++ [u]) = given uses ++ u.gives?.toList := by
  rw [given, List.filterMap_append]
  cases u <;> rfl

theorem le_of_stamped {now : Nat} (found : (t, u) ∈ stamped now uses) : t ≤ now + clock uses := by
  induction uses generalizing now with
  | nil => cases found
  | cons v uses ih =>
    rw [clock]
    rcases List.mem_cons.1 found with same | found
    · cases same
      exact Nat.le_add_right ..
    · have later := ih found
      omega

theorem firedAt?_le (fires : firedAt? signal uses = some t) : t ≤ clock uses := by
  obtain ⟨⟨at_, u⟩, found, here⟩ := List.exists_of_findSome?_eq_some fires
  have before := le_of_stamped found
  split at here
  · obtain rfl := Option.some.inj here
    omega
  · cases here

end

namespace Shared

/-- A call starts the daily task. In the call itself nothing is reported. -/
theorem use_daily_first {s : Shared} (new : s.desk.daily = .notStarted) (signal : Nat) :
    s.use (.daily signal) =
      (.daily true, .ofEntries s.desk.now [Log.debug "Starting daily log of RUNNING status"],
        { s with
          desk := { s.desk with daily := .spawned, dailyStopped := decide (signal ∈ s.fired) }
          own := some signal }) := by
  simp only [use, startDaily, Desk.startDaily, new, ↓reduceIte]

theorem use_daily_again {s : Shared} (started : s.desk.daily ≠ .notStarted) (signal : Nat) :
    s.use (.daily signal) =
      (.daily false,
        .ofEntries s.desk.now [Log.debug "Daily log of RUNNING status already started"], s) := by
  cases daily : s.desk.daily with
  | notStarted => exact absurd daily started
  | spawned | waiting | ended =>
    simp only [use, startDaily, Desk.startDaily, daily, Bool.false_eq_true, ↓reduceIte]

/-- What the daily task performs in a use. It has its turns only when a user gives way to it. -/
def performances (s : Shared) : Use → List Performance
  | .pass ms => s.desk.performsIn ms
  | _ => []

end Shared

def DailyTask.endedAt? : DailyTask → Option Nat
  | .ended at_ => some at_
  | _ => none

/-- What has become of a shared logger and its daily task. -/
structure Account where
  shared : Shared
  /-- What the daily task has performed. -/
  performed : List Performance := []

namespace Account

/-- The instant at which the daily task has ended. -/
def ended (a : Account) : Option Nat := a.shared.desk.daily.endedAt?

def add (a : Account) (u : Use) : Account :=
  ⟨(a.shared.use u).2.2, a.performed ++ a.shared.performances u⟩

end Account

def account (exclusions : List String) (uses : List Use) : Account :=
  uses.foldl Account.add { shared := .new exclusions }

/-- Nobody has called for the daily task. -/
structure Account.Idle (a : Account) : Prop where
  own : a.shared.own = none
  daily : a.shared.desk.daily = .notStarted
  unstopped : a.shared.desk.dailyStopped = false
  performed : a.performed = []

/-- Where a task is that was started at `first`, and at which instants it has performed. It learns
at its next turn that its signal has fired. -/
inductive Phase (now : Nat) (fired : Option Nat) (first : Nat) : DailyTask → List Nat → Prop
  | spawned (begins : now = first) : Phase now fired first .spawned []
  | waiting (unheard : ∀ c, fired = some c → c = now) :
    Phase now fired first (.waiting (nextDue first now)) (timetable first now)
  | ended {c : Nat} (heard : fired = some c) :
    Phase now fired first (.ended (max first c)) (timetable first c)

/-- The daily task was started at `first`, and its signal may have fired. -/
structure Account.Going (a : Account) (now : Nat) (fired : Option Nat) (first signal : Nat) :
    Prop where
  begun : first ≤ now
  own : a.shared.own = some signal
  stopped : a.shared.desk.dailyStopped = fired.isSome
  phase : Phase now fired first a.shared.desk.daily (a.performed.map (·.1))

structure Account.Keeps (exclusions : List String) (uses : List Use) (a : Account) : Prop where
  now : a.shared.desk.now = clock uses
  fired : ∀ signal, signal ∈ a.shared.fired ↔ (firedAt? signal uses).isSome = true
  recalls : Recalls exclusions (given uses) a.shared.desk.logger
  idle : firstCall? uses = none → a.Idle
  going : ∀ first signal, firstCall? uses = some (first, signal) →
    a.Going (clock uses) (firedAt? signal uses) first signal

namespace Account

section

variable {exclusions : List String} {uses : List Use} {a : Account} {u : Use}
  {now first signal : Nat} {fired : Option Nat}

theorem now_use (s : Shared) (u : Use) : (s.use u).2.2.desk.now = s.desk.now + u.lasts := by
  cases u with
  | daily signal =>
    by_cases new : s.desk.daily = .notStarted
    · rw [Shared.use_daily_first new]
      rfl
    · rw [Shared.use_daily_again new]
      rfl
  | _ => rfl

theorem mem_fired_use (s : Shared) (u : Use) (signal : Nat) :
    signal ∈ (s.use u).2.2.fired ↔ u.fires? = some signal ∨ signal ∈ s.fired := by
  cases u with
  | fire other =>
    show signal ∈ other :: s.fired ↔ _
    rw [List.mem_cons, Use.fires?, Option.some.injEq, eq_comm]
  | daily other =>
    have kept : (s.use (.daily other)).2.2.fired = s.fired := by
      by_cases new : s.desk.daily = .notStarted
      · rw [Shared.use_daily_first new]
      · rw [Shared.use_daily_again new]
    rw [kept]
    exact (or_iff_right nofun).symm
  | _ => exact (or_iff_right nofun).symm

/-- Only what a use sets changes the properties in force. -/
theorem recalls_use {set : List Call} {s : Shared} (recalls : Recalls exclusions set s.desk.logger)
    (u : Use) : Recalls exclusions (set ++ u.gives?.toList) (s.use u).2.2.desk.logger := by
  have same : set ++ [] = set := List.append_nil set
  cases u with
  | setAgent agent => exact recalls.give (.setAgent agent)
  | setCloud cloud => exact recalls.give (.setCloud cloud)
  | setProperties integration enabled cloud =>
    exact recalls.give (.setProperties integration enabled cloud)
  | setPlatform platform => exact recalls.give (.setPlatform platform)
  | log status value => exact same.symm ▸ recalls.note status s.desk.now
  | logQuietly status value => exact same.symm ▸ recalls.note status s.desk.now
  | deliver delivery => exact same.symm ▸ recalls
  | fire signal => exact same.symm ▸ recalls
  | daily signal =>
    have kept : (s.use (.daily signal)).2.2.desk.logger = s.desk.logger := by
      by_cases new : s.desk.daily = .notStarted
      · rw [Shared.use_daily_first new]
      · rw [Shared.use_daily_again new]
    rw [kept]
    exact same.symm ▸ recalls
  | pass ms =>
    show Recalls exclusions (set ++ []) (s.desk.advance ms).2.logger
    rw [same, (advance_leaves s.desk ms).2]
    exact recalls.noted _

/-- A use that leaves the task alone. -/
structure Spares (s : Shared) (u : Use) : Prop where
  own : (s.use u).2.2.own = s.own
  daily : (s.use u).2.2.desk.daily = s.desk.daily
  stopped : (s.use u).2.2.desk.dailyStopped = s.desk.dailyStopped
  silent : s.performances u = []

theorem Idle.spared (idle : a.Idle) (spares : Spares a.shared u) : (a.add u).Idle where
  own := spares.own.trans idle.own
  daily := spares.daily.trans idle.daily
  unstopped := spares.stopped.trans idle.unstopped
  performed := by rw [add, spares.silent, idle.performed]; rfl

theorem Going.spared (going : a.Going now fired first signal) (spares : Spares a.shared u) :
    (a.add u).Going now fired first signal where
  begun := going.begun
  own := spares.own.trans going.own
  stopped := spares.stopped.trans going.stopped
  phase := by
    have performed : (a.add u).performed = a.performed := by
      rw [add, spares.silent, List.append_nil]
    rw [performed, add, spares.daily]
    exact going.phase

theorem spares_fire {s : Shared} (other : s.own ≠ some signal) : Spares s (.fire signal) where
  own := rfl
  daily := rfl
  stopped := by
    show (s.desk.dailyStopped || s.own == some signal) = _
    rw [beq_eq_false_iff_ne.2 other, Bool.or_false]
  silent := rfl

theorem spares_pass {s : Shared} {ms : Nat} (new : s.desk.daily ≠ .spawned)
    (still : ∀ next, s.desk.daily ≠ .waiting next) : Spares s (.pass ms) := by
  have turn := turn_still new still
  obtain ⟨left, nothing⟩ := advance_still (d := s.desk) (by rwa [turn]) ms
  rw [turn] at left
  have desk : (s.use (.pass ms)).2.2.desk = { s.desk with now := s.desk.now + ms } := left
  refine ⟨rfl, by rw [desk], by rw [desk], ?_⟩
  show s.desk.performsIn ms = []
  rw [nothing, Desk.opening, if_neg new]

theorem Going.started (going : a.Going now fired first signal) :
    a.shared.desk.daily ≠ .notStarted := by
  intro new
  have phase := going.phase
  rw [new] at phase
  cases phase

/-- The first call starts the task, which then waits for its turn. -/
theorem Idle.begins (idle : a.Idle) (known : signal ∈ a.shared.fired ↔ fired.isSome = true) :
    (a.add (.daily signal)).Going now fired now signal := by
  have use := Shared.use_daily_first idle.daily signal
  constructor
  · exact Nat.le_refl now
  · rw [add, use]
  · rw [add, use]
    exact Bool.eq_iff_iff.2 (by rw [decide_eq_true_eq, known])
  · have performed : (a.add (.daily signal)).performed = [] := by
      rw [add, idle.performed]
      rfl
    rw [performed, add, use]
    exact .spawned rfl

theorem spares_called (going : a.Going now fired first signal) (other : Nat) :
    Spares a.shared (.daily other) := by
  have use := Shared.use_daily_again going.started other
  exact ⟨by rw [use], by rw [use], by rw [use], rfl⟩

/-- The signal of the task fires: the task learns of it at its next turn. -/
theorem Going.signalled (going : a.Going now fired first signal) :
    (a.add (.fire signal)).Going now (fired.or (some now)) first signal where
  begun := going.begun
  own := going.own
  stopped := by
    show (a.shared.desk.dailyStopped || a.shared.own == some signal) = _
    rw [going.own, beq_self_eq_true, Bool.or_true, Option.isSome_or]
    exact (Bool.or_true _).symm
  phase := by
    have performed : (a.add (.fire signal)).performed = a.performed := List.append_nil _
    rw [performed]
    show Phase now (fired.or (some now)) first a.shared.desk.daily (a.performed.map (·.1))
    have phase := going.phase
    generalize a.shared.desk.daily = task, a.performed.map (·.1) = instants at phase ⊢
    cases phase with
    | spawned begins => exact .spawned begins
    | waiting unheard =>
      refine .waiting fun c same => ?_
      cases fired with
      | none => exact (Option.some.inj same).symm
      | some c' => exact unheard c same
    | ended heard => exact .ended (by rw [heard]; rfl)

/-- The task after a turn: it has heard of its signal, if that has fired. -/
structure Settled (a : Account) (now : Nat) (fired : Option Nat) (first : Nat) : Prop where
  daily : a.shared.desk.daily = fired.elim (.waiting (nextDue first now)) (.ended ∘ max first)
  instants : a.performed.map (·.1) = timetable first (fired.getD now)

theorem Settled.phase (settled : a.Settled now fired first) :
    Phase now fired first a.shared.desk.daily (a.performed.map (·.1)) := by
  rw [settled.daily, settled.instants]
  cases fired with
  | none => exact .waiting nofun
  | some c => exact .ended rfl

theorem settled_of_waiting (time : a.shared.desk.now = now)
    (waits : a.shared.desk.turn.2.daily = .waiting (nextDue first now))
    (so_far : a.performed.map (·.1) ++ a.shared.desk.opening.map (·.1) = timetable first now)
    (ms : Nat) : (a.add (.pass ms)).Settled (now + ms) none first := by
  obtain ⟨later, more⟩ := advance_waiting waits (time ▸ now_lt_nextDue first now) ms
  have within : now ≤ now + ms := Nat.le_add_right now ms
  constructor
  · show (a.shared.desk.advance ms).2.daily = _
    rw [later, time, nextDue_later within]
    rfl
  · show (a.performed ++ a.shared.desk.performsIn ms).map (·.1) = _
    rw [List.map_append, more, time, ← List.append_assoc, so_far]
    exact timetable_append within

theorem settled_of_ended {c : Nat} (ended : a.shared.desk.turn.2.daily = .ended (max first c))
    (so_far : a.performed.map (·.1) ++ a.shared.desk.opening.map (·.1) = timetable first c)
    (ms : Nat) : (a.add (.pass ms)).Settled now (some c) first := by
  obtain ⟨left, nothing⟩ := advance_still (d := a.shared.desk) (by simp [ended]) ms
  constructor
  · show (a.shared.desk.advance ms).2.daily = _
    rw [left]
    exact ended
  · show (a.performed ++ a.shared.desk.performsIn ms).map (·.1) = _
    rw [List.map_append, nothing, so_far]
    rfl

/-- After a turn the task goes on with its timetable, or it has ended. -/
theorem Going.passed (going : a.Going now fired first signal) (time : a.shared.desk.now = now)
    (by_now : ∀ c, fired = some c → c ≤ now) (ms : Nat) :
    (a.add (.pass ms)).Settled (now + ms) fired first := by
  have stopped := going.stopped
  have phase := going.phase
  generalize daily : a.shared.desk.daily = task at phase
  generalize done : a.performed.map (·.1) = instants at phase
  cases phase with
  | spawned begins =>
    have turn := turn_spawned daily
    have opening : a.shared.desk.opening.map (·.1) = [now] := by
      rw [Desk.opening, if_pos daily, ← time]
      rfl
    cases fired with
    | none =>
      refine settled_of_waiting time ?_ ?_ ms
      · rw [turn, stopped, time, ← begins, nextDue_self]
        rfl
      · rw [opening, done, begins, timetable_start (Nat.le_refl first), List.nil_append]
    | some c =>
      have early : c ≤ first := begins ▸ by_now c rfl
      refine settled_of_ended ?_ ?_ ms
      · rw [turn, stopped, time, begins, Nat.max_eq_left early]
        rfl
      · rw [opening, done, begins, timetable_start early, List.nil_append]
  | waiting unheard =>
    have turn := turn_waiting daily
    have opening : a.shared.desk.opening = [] := if_neg (by simp [daily])
    cases fired with
    | none =>
      refine settled_of_waiting time ?_ ?_ ms
      · rw [turn, stopped]
        exact daily
      · rw [opening, done, List.map_nil, List.append_nil]
    | some c =>
      obtain rfl := unheard c rfl
      refine settled_of_ended ?_ ?_ ms
      · rw [turn, stopped, time, Nat.max_eq_right going.begun]
        rfl
      · rw [opening, done, List.map_nil, List.append_nil]
  | @ended c heard =>
    subst heard
    have turn := turn_still (d := a.shared.desk) (by simp [daily]) (by simp [daily])
    have opening : a.shared.desk.opening = [] := if_neg (by simp [daily])
    refine settled_of_ended ?_ ?_ ms
    · rw [turn]
      exact daily
    · rw [opening, done, List.map_nil, List.append_nil]

theorem Idle.use (idle : a.Idle) (asks : u.asks? = none) : (a.add u).Idle := by
  cases u with
  | daily signal => cases asks
  | fire signal =>
    apply idle.spared
    apply spares_fire
    rw [idle.own]
    exact nofun
  | pass ms =>
    apply idle.spared
    apply spares_pass <;> rw [idle.daily] <;> exact nofun
  | _ => exact idle.spared ⟨rfl, rfl, rfl, rfl⟩

theorem Going.use (going : a.Going now fired first signal) (time : a.shared.desk.now = now)
    (by_now : ∀ c, fired = some c → c ≤ now) (u : Use) :
    (a.add u).Going (now + u.lasts)
      (fired.or (if u.fires? = some signal then some now else none)) first signal := by
  cases u with
  | daily other =>
    rw [if_neg nofun, Option.or_none]
    exact going.spared (spares_called going other)
  | fire other =>
    have fires : (Use.fire other).fires? = some other := rfl
    by_cases same : other = signal
    · subst same
      rw [fires, if_pos rfl]
      exact going.signalled
    · rw [fires, if_neg fun h => same (Option.some.inj h), Option.or_none]
      apply going.spared
      apply spares_fire
      rw [going.own]
      exact fun h => same (Option.some.inj h).symm
  | pass ms =>
    rw [if_neg nofun, Option.or_none]
    have stopped : (a.add (.pass ms)).shared.desk.dailyStopped = fired.isSome :=
      (frame_advance a.shared.desk ms).1.trans going.stopped
    exact ⟨Nat.le_trans going.begun (Nat.le_add_right now ms), going.own, stopped,
      (going.passed time by_now ms).phase⟩
  | _ =>
    rw [if_neg nofun, Option.or_none]
    exact going.spared ⟨rfl, rfl, rfl, rfl⟩

theorem Keeps.add (keeps : a.Keeps exclusions uses) (u : Use) :
    (a.add u).Keeps exclusions (uses ++ [u]) := by
  have call := firstCall?_concat uses u
  constructor
  · rw [clock_concat, ← keeps.now]
    exact now_use a.shared u
  · intro signal
    rw [firedAt?_concat, Option.isSome_or, Bool.or_eq_true, ← keeps.fired, or_comm]
    show signal ∈ (a.shared.use u).2.2.fired ↔ _
    rw [mem_fired_use]
    by_cases fires : u.fires? = some signal
    · simp [fires]
    · simp [fires]
  · rw [given_concat]
    exact recalls_use keeps.recalls u
  · intro none
    obtain ⟨before, asks⟩ := Option.or_eq_none_iff.1 (call.symm.trans none)
    exact (keeps.idle before).use (Option.map_eq_none_iff.1 asks)
  · intro first signal called
    rw [clock_concat, firedAt?_concat]
    cases before : firstCall? uses with
    | some earlier =>
      have same : earlier = (first, signal) := by
        rw [before, called] at call
        exact (Option.some.inj call).symm
      have going := keeps.going first signal (before.trans (congrArg some same))
      exact going.use keeps.now (fun c => firedAt?_le) u
    | none =>
      -- it is this use that calls for the task
      rw [before, called, Option.none_or] at call
      obtain ⟨_, asks, same⟩ := Option.map_eq_some_iff.1 call.symm
      cases same
      cases u with
      | daily signal =>
        cases asks
        rw [if_neg nofun, Option.or_none]
        exact (keeps.idle before).begins (keeps.fired signal)
      | _ => cases asks

/-- The account of uses is kept from the first one on. -/
theorem Keeps.foldl (keeps : a.Keeps exclusions uses) (more : List Use) :
    (more.foldl Account.add a).Keeps exclusions (uses ++ more) := by
  induction more generalizing a uses with
  | nil => rwa [List.append_nil]
  | cons u more ih =>
    have rest := ih (keeps.add u)
    rwa [List.append_assoc] at rest

theorem keeps_new (exclusions : List String) :
    Account.Keeps exclusions [] { shared := .new exclusions } where
  now := rfl
  fired _ := by constructor <;> nofun
  recalls := ⟨[], .new exclusions, rfl, rfl, rfl⟩
  idle _ := ⟨rfl, rfl, rfl, rfl⟩
  going := nofun

end

end Account

theorem keeps_account (exclusions : List String) (uses : List Use) :
    (account exclusions uses).Keeps exclusions uses :=
  (Account.keeps_new exclusions).foldl uses

/-- A call starts the daily task, and in the call itself nothing is reported. -/
def Shared.Starts (s : Shared) (signal : Nat) : Prop :=
  ∃ later, s.use (.daily signal) =
      (.daily true, .ofEntries s.desk.now [Log.debug "Starting daily log of RUNNING status"],
        later) ∧ later.desk.logger = s.desk.logger

/-- A call for the daily task starts nothing and changes nothing. -/
def Shared.Refuses (s : Shared) (signal : Nat) : Prop :=
  s.use (.daily signal) =
    (.daily false,
      .ofEntries s.desk.now [Log.debug "Daily log of RUNNING status already started"], s)

/-- The task of a first call has performed RUNNING at the instant of the call and then once a
period, before its signal fired and up to now. It ended when the signal fired, if it had begun by
then. -/
structure OnTimetable (uses : List Use) (a : Account) (first signal : Nat) : Prop where
  ordered : (a.performed.map (·.1)).Pairwise (· < ·)
  instants : ∀ t, t ∈ a.performed.map (·.1) ↔
    t = first ∨ ∃ k, 0 < k ∧ t = first + k * dailyPeriod ∧ t ≤ clock uses ∧
      ∀ fired, firedAt? signal uses = some fired → t < fired
  ended : a.ended = (firedAt? signal uses).map (max first)

theorem Account.Settled.onTimetable {uses : List Use} {a : Account} {first signal : Nat}
    (settled : a.Settled (clock uses) (firedAt? signal uses) first)
    (untied : ∀ fired k, firedAt? signal uses = some fired → 0 < k →
      fired ≠ first + k * dailyPeriod) :
    OnTimetable uses a first signal := by
  constructor
  · rw [settled.instants]
    exact timetable_increasing ..
  · intro t
    rw [settled.instants, mem_timetable]
    apply or_congr_right
    apply exists_congr
    intro k
    apply and_congr_right
    intro later
    apply and_congr_right
    rintro rfl
    cases fires : firedAt? signal uses with
    | none =>
      rw [Option.getD_none]
      exact (and_iff_left nofun).symm
    | some fired =>
      have apart := untied fired k fires later
      have by_now := firedAt?_le fires
      rw [Option.getD_some]
      constructor
      · intro within
        refine ⟨Nat.le_trans within by_now, ?_⟩
        rintro _ ⟨⟩
        exact Nat.lt_of_le_of_ne within apart.symm
      · rintro ⟨-, before⟩
        exact Nat.le_of_lt (before fired rfl)
  · rw [Account.ended, settled.daily]
    cases firedAt? signal uses <;> rfl

/-- Whatever users do with a new logger, in whatever order: the first call for the daily task starts
it and every other one is refused and changes nothing, after the task has ended as well. Whenever a
user gives way to it, the task has performed RUNNING at the instant of the first call and then a
period after the other, as long as the signal of that call had not fired, and has ended when it
fired; no other signal matters, and no outcome of a report. What it performs it performs like any
other user, by the properties in force at its turn: it makes its report just if these let the agent
report, locate it and do not exclude it. Reports take no time, and the signal does not fire at an
instant of the timetable. -/
theorem one_daily_task (exclusions : List String) (uses : List Use)
    (untied : ∀ first signal fired k, firstCall? uses = some (first, signal) →
      firedAt? signal uses = some fired → 0 < k → fired ≠ first + k * dailyPeriod) :
    let a := account exclusions uses
    a.shared.desk.now = clock uses ∧
      (firstCall? uses = none →
        (∀ signal, a.shared.Starts signal) ∧ a.performed = [] ∧ a.ended = none) ∧
      (∀ first signal, firstCall? uses = some (first, signal) →
        (∀ other, a.shared.Refuses other) ∧
          ∀ ms, OnTimetable (uses ++ [.pass ms]) (account exclusions (uses ++ [.pass ms])) first
            signal) ∧
      (∀ ms, (a.shared.use (.pass ms)).2.1 = .told (a.shared.performances (.pass ms)) ∧
        (a.shared.use (.pass ms)).2.2.desk.logger =
          a.shared.desk.logger.noted (a.shared.performances (.pass ms))) ∧
      ∀ u, ∀ p ∈ a.shared.performances u, Sent exclusions (given uses) p := by
  intro a
  have keeps : a.Keeps exclusions uses := keeps_account exclusions uses
  refine ⟨keeps.now, ?_, ?_, ?_, ?_⟩
  · intro none
    have idle := keeps.idle none
    refine ⟨fun signal => ⟨_, Shared.use_daily_first idle.daily signal, rfl⟩, idle.performed, ?_⟩
    rw [Account.ended, idle.daily]
    rfl
  · intro first signal called
    have going := keeps.going first signal called
    refine ⟨fun other => Shared.use_daily_again going.started other, fun ms => ?_⟩
    have fires : firedAt? signal (uses ++ [.pass ms]) = firedAt? signal uses := by
      rw [firedAt?_concat, if_neg nofun, Option.or_none]
    apply Account.Settled.onTimetable
    · rw [fires, clock_concat, account, List.foldl_append]
      exact going.passed keeps.now (fun c => firedAt?_le) ms
    · intro fired k
      rw [fires]
      exact untied first signal fired k called
  · exact advance_leaves a.shared.desk
  · intro u
    cases u with
    | pass ms => exact keeps.recalls.all_sent_in ms
    | _ => exact nofun

/-- One task for three calls. The location is set after the first call, a second signal fires in
vain, the location is missing for a day, and the third call comes after the end. -/
theorem one_daily_task_resumed :
    let placed : CloudProperties := { zone := "zone" }
    let uses : List Use :=
      [.setProperties {} true {}, .pass 1000, .daily 1, .setCloud placed, .daily 2, .fire 2,
        .pass 86460000, .setCloud {}, .pass 86460000, .setCloud placed, .pass 500, .fire 1, .daily 3]
    let a := account [] (uses ++ [.pass 86460000])
    (∀ first signal fired k, firstCall? uses = some (first, signal) →
      firedAt? signal uses = some fired → 0 < k → fired ≠ first + k * dailyPeriod) ∧
      OnTimetable (uses ++ [.pass 86460000]) a 1000 1 ∧ a.ended = some 172921500 ∧
      a.performed.map (fun p => (p.1, p.2.report.isSome)) =
        [(1000, true), (86461000, true), (172921000, false)] ∧
      (∀ signal, (account [] uses).shared.Refuses signal) := by
  intro placed uses a
  have call : firstCall? uses = some (1000, 1) := by decide
  have fires : firedAt? 1 uses = some 172921500 := by decide
  have untied : ∀ first signal fired k, firstCall? uses = some (first, signal) →
      firedAt? signal uses = some fired → 0 < k → fired ≠ first + k * dailyPeriod := by
    intro first signal fired k called fires' _
    obtain ⟨rfl, rfl⟩ : 1000 = first ∧ 1 = signal :=
      Prod.mk.inj (Option.some.inj (call.symm.trans called))
    obtain rfl : 172921500 = fired := Option.some.inj (fires.symm.trans fires')
    unfold dailyPeriod
    omega
  obtain ⟨-, -, started, -, -⟩ := one_daily_task [] uses untied
  obtain ⟨refuses, kept⟩ := started 1000 1 call
  have performed : a.performed.map (fun p => (p.1, p.2.report.isSome)) =
      [(1000, true), (86461000, true), (172921000, false)] := by decide +kernel
  have ended : a.ended = some 172921500 := by decide +kernel
  exact ⟨untied, kept 86460000, ended, performed, refuses⟩

end ChannelAgent.Usage
