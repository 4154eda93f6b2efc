import Mathlib.Data.ENat.Lattice
import Mathlib.Data.List.Forall2
import ChannelAgent.Daemon.Basic
import ChannelAgent.Proofs.Service.Supervision

set_option autoImplicit false

namespace ChannelAgent.Daemon

open Supervision

/-- A service in a daemon, if nobody aborts its task: the stop signal that it sees, its runs, and
the instant at which its task ends. -/
structure Life where
  service : Service
  signal : Signal
  stints : List Stint
  ended : Option Nat

namespace Life

/-- The calls of the work that a run consists of begin before an instant. -/
def CallsBefore (s : Service) (st : Stint) (d : Nat) : Prop :=
  ∃ calls signal made, st.result = s.run calls st.begins signal ∧
    s.Runs calls st.begins signal made st.result ∧ ∀ m ∈ made, m.begins < d

/-- A life in a daemon whose stop signal fires at `stop`, and not after its shutdown. Until its
shutdown a service that gives the signal itself knows of no other. -/
structure Led (shutdown stop : Nat) (l : Life) : Prop where
  under : l.signal = ⟨some stop⟩ ∨ l.signal = ⟨some shutdown⟩
  chained : Chained l.service 0 l.signal l.stints
  first : l.stints.head?.map (·.begins) = some 0 ∨ l.stints = [] ∧ stop = 0
  next : ∀ n st, l.stints[n]? = some st →
    l.stints[n + 1]?.map (·.begins) = st.next? (Backoff.standard.interval n)
  ended : l.ended = l.stints.getLast?.elim (some 0) Stint.over?
  begins : ∀ st ∈ l.stints, st.begins < shutdown
  calls : ∀ st ∈ l.stints, CallsBefore l.service st shutdown

def failures (l : Life) : List Nat := l.stints.flatMap (Stint.failures l.service)

end Life

/-- A life is that of the service of a task, and the task knows its end, its runs and its
failures. -/
structure Tells (shutdown stop : Nat) (t : Task) (l : Life) : Prop where
  service : t.1 = l.service
  led : l.Led shutdown stop
  ended : t.2.ended = l.ended
  starts : instants Event.isStarting t.2.events = l.stints.map (·.begins)
  failures : instants Event.isFailure t.2.events = l.failures

/-- The lives of the services of a daemon. When every service leaves the stop signal alone, it is
the shutdown that each of them sees, in all of its runs. -/
structure Lived (services : List Service) (shutdown stop : Nat) (lives : List Life) : Prop where
  covers : lives.map (·.service) = services
  within : stop ≤ shutdown
  led : ∀ l ∈ lives, l.Led shutdown stop
  undisturbed : (∀ s ∈ services, s.LeavesSignal) → stop = shutdown ∧
    ∀ l ∈ lives, l.signal = ⟨some shutdown⟩ ∧ ∀ st ∈ l.stints, st.result.signal = ⟨some shutdown⟩

/-- The instant at which the stop signal of a daemon fires. -/
def Setting.stopsAt (x : Setting) (r : Registry) : Nat := (tasks r.services x.shutdown).2

/-- The instants at which the services of a daemon, each by itself, give the stop signal before its
shutdown. -/
def Setting.given (x : Setting) (r : Registry) : Set Nat :=
  {c | ∃ s ∈ r.services, givenBefore x.shutdown (superviseFrom ⟨some x.shutdown⟩ s) = some c}

def orNever (instant : Option Nat) : ℕ∞ := instant.elim ⊤ Nat.cast

inductive Arises (shutdown stop : Nat) : Task → Prop
  /-- It sees the stop signal at `d`. -/
  | supervised (s : Service) (d : Nat) (under : d = stop ∨ d = shutdown) :
    Arises shutdown stop (superviseFrom ⟨some d⟩ s)
  /-- It has begun when another service gives the signal at the same instant. -/
  | overtaken (s : Service) (given : stop = 0) (running : 0 < shutdown) :
    Arises shutdown stop (s, superviseStarted s .standard 0 ⟨some 0⟩)

section

variable {shutdown stop : Nat} {services : List Service}

theorem supervised_calls {s : Service} {backoff : Backoff} {calls now c : Nat} {signal : Signal}
    {stints : List Stint} {t : Trace} (paced : s.Paced) (fires : signal.firesAt = some c)
    (within : c ≤ shutdown) (life : Supervised s backoff calls now signal stints t)
    (begins : ∀ st ∈ stints, st.begins < shutdown) :
    ∀ st ∈ stints, Life.CallsBefore s st shutdown := by
  intro st found
  obtain ⟨before, seen, c', fires', no_later, same⟩ := life.chained.mem fires st found
  obtain ⟨made, runs⟩ := s.run_runs paced fires' before st.begins
  exact ⟨before, seen, made, same, same ▸ runs,
    runs.begins_before fires' (Nat.le_trans no_later within) (begins st found)⟩

theorem Arises.tells {t : Task} (arises : Arises shutdown stop t) (within : stop ≤ shutdown)
    (paced : t.1.Paced) : ∃ l, Tells shutdown stop t l := by
  cases arises with
  | supervised s d under =>
    have no_later : d ≤ shutdown := by omega
    obtain ⟨stints, life, first, begins⟩ :=
      supervise_spec s Backoff.lasting_standard 0 ⟨some d⟩ rfl
    have before : ∀ st ∈ stints, st.begins < shutdown := fun st found =>
      Nat.lt_of_lt_of_le (begins st found) no_later
    refine ⟨⟨s, ⟨some d⟩, stints, (superviseFrom ⟨some d⟩ s).2.ended⟩, rfl,
      ⟨?_, life.chained, ?_, life.next, ?_, before, ?_⟩, rfl, life.starts, life.failures⟩
    · rcases under with rfl | rfl
      · exact .inl rfl
      · exact .inr rfl
    · by_cases early : d = 0
      · subst early
        right
        refine ⟨by simpa [Signal.fired] using first, by omega⟩
      · left
        simpa [Signal.fired, early] using first
    · rw [superviseFrom, life.ended]
      cases stints.getLast? <;> rfl
    · exact supervised_calls paced rfl no_later life before
  | overtaken s given running =>
    have life : Supervised s .standard 0 0 ⟨some 0⟩ [⟨0, s.run 0 0 ⟨some 0⟩⟩]
        (superviseStarted s .standard 0 ⟨some 0⟩) :=
      superviseStarted_spec s Backoff.lasting_standard rfl (Nat.le_refl 0)
    let st : Stint := ⟨0, s.run 0 0 ⟨some 0⟩⟩
    have before : ∀ st' ∈ [st], st'.begins < shutdown := by simpa using running
    refine ⟨⟨s, ⟨some 0⟩, [st], (superviseStarted s .standard 0 ⟨some 0⟩).ended⟩, rfl,
      ⟨.inl (by rw [given]), life.chained, .inl rfl, life.next, life.ended, before, ?_⟩, rfl,
      life.starts, life.failures⟩
    exact supervised_calls paced rfl (Nat.zero_le shutdown) life before

/-- A task tells of nothing later than its end. -/
theorem Arises.spans {t : Task} (arises : Arises shutdown stop t) :
    Spans 0 t.2.events t.2.ended := by
  cases arises with
  | supervised s d => exact spans_supervise s .standard 0 ⟨some d⟩
  | overtaken s => exact spans_superviseStarted s .standard 0 ⟨some 0⟩

theorem orNever_earlier (a b : Option Nat) : orNever (earlier a b) = min (orNever a) (orNever b) := by
  cases a with
  | none => exact (top_inf_eq _).symm
  | some a =>
    cases b with
    | none => exact (inf_top_eq _).symm
    | some b => exact Nat.mono_cast.map_min

/-- Of an instant given before and those at which tasks give the signal, the earliest one counts. -/
theorem isLeast_earlier (shutdown : Nat) (ts : List Task) (given : Option Nat) :
    IsLeast (insert (orNever given) {e | ∃ t ∈ ts, orNever (givenBefore shutdown t) = e})
      (orNever (ts.foldl (fun c t => earlier c (givenBefore shutdown t)) given)) := by
  induction ts generalizing given with
  | nil => exact ⟨.inl rfl, by simp [lowerBounds]⟩
  | cons t ts ih =>
    obtain ⟨found, lower⟩ := ih (earlier given (givenBefore shutdown t))
    rw [List.foldl_cons]
    rw [orNever_earlier] at found lower
    have least := lower (.inl rfl)
    constructor
    · rcases found with first | ⟨t', behind, same⟩
      · rcases min_choice (orNever given) (orNever (givenBefore shutdown t)) with one | one
        · exact .inl (first.trans one)
        · exact .inr ⟨t, List.mem_cons_self, (first.trans one).symm⟩
      · exact .inr ⟨t', List.mem_cons_of_mem t behind, same⟩
    · rintro e (rfl | ⟨t', among, rfl⟩)
      · exact least.trans (min_le_left ..)
      · rcases List.mem_cons.1 among with rfl | behind
        · exact least.trans (min_le_right ..)
        · exact lower (.inr ⟨t', behind, rfl⟩)

/-- The signal comes from one of the tasks. -/
theorem exists_given {ts : List Task} {c : Nat}
    (found : ts.foldl (fun c t => earlier c (givenBefore shutdown t)) none = some c) :
    ∃ t ∈ ts, givenBefore shutdown t = some c := by
  have least := (isLeast_earlier shutdown ts none).1
  rw [found] at least
  rcases least with never | ⟨t, among, same⟩
  · exact absurd never (ENat.natCast_ne_top c)
  · refine ⟨t, among, ?_⟩
    cases gives : givenBefore shutdown t with
    | none => exact absurd (same.symm.trans (congrArg orNever gives)) (ENat.natCast_ne_top c)
    | some d =>
      rw [gives] at same
      exact congrArg some (Nat.cast_inj.1 same)

theorem lt_of_givenBefore {t : Task} {c : Nat} (gives : givenBefore shutdown t = some c) :
    c < shutdown := by
  obtain ⟨-, before⟩ := Option.filter_eq_some_iff.1 gives
  simpa using before

theorem givenBefore_of_leaves {s : Service} (leaves : s.LeavesSignal) :
    givenBefore shutdown (superviseFrom ⟨some shutdown⟩ s) = none := by
  obtain ⟨stints, life, -⟩ := supervise_spec s Backoff.lasting_standard 0 ⟨some shutdown⟩ rfl
  have kept := life.signal_eq leaves
  simp [givenBefore, superviseFrom, kept]

/-- No signal is given when every service leaves it alone. -/
theorem none_given (leaves : ∀ s ∈ services, s.LeavesSignal) :
    (services.map (superviseFrom ⟨some shutdown⟩)).foldl
      (fun c t => earlier c (givenBefore shutdown t)) none = none := by
  induction services with
  | nil => rfl
  | cons s services ih =>
    obtain ⟨here, others⟩ := List.forall_mem_cons.1 leaves
    rw [List.map_cons, List.foldl_cons, givenBefore_of_leaves here]
    exact ih others

theorem firstTurns_arise {ts : List Task} (running : 0 < shutdown)
    (alone : ∀ t ∈ ts, t = superviseFrom ⟨some shutdown⟩ t.1) (given : Bool) :
    (firstTurns given ts).map (·.1) = ts.map (·.1) ∧
      ∀ t ∈ firstTurns given ts, Arises shutdown 0 t := by
  induction ts generalizing given with
  | nil => cases given <;> exact ⟨rfl, nofun⟩
  | cons t ts ih =>
    obtain ⟨here, alone⟩ := List.forall_mem_cons.1 alone
    have first : Arises shutdown 0 t := here ▸ .supervised t.1 shutdown (.inr rfl)
    -- whatever becomes of the first task, the others follow
    have both {t' : Task} {given' : Bool} (same : t'.1 = t.1) (arises : Arises shutdown 0 t') :
        (t' :: firstTurns given' ts).map (·.1) = (t :: ts).map (·.1) ∧
          ∀ u ∈ t' :: firstTurns given' ts, Arises shutdown 0 u := by
      obtain ⟨names, others⟩ := ih alone given'
      exact ⟨by rw [List.map_cons, List.map_cons, same, names],
        List.forall_mem_cons.2 ⟨arises, others⟩⟩
    cases given with
    | true => exact both rfl (.supervised t.1 0 (.inl rfl))
    | false =>
      rw [firstTurns]
      split
      · exact both rfl first
      · split
        · exact both rfl first
        · exact both rfl (.overtaken t.1 rfl running)

/-- The tasks of a daemon, and the instant of its stop signal: the shutdown when every service
leaves the signal alone. -/
theorem tasks_arise (services : List Service) (shutdown : Nat) :
    (tasks services shutdown).1.map (·.1) = services ∧
      (tasks services shutdown).2 ≤ shutdown ∧
      ((∀ s ∈ services, s.LeavesSignal) → (tasks services shutdown).2 = shutdown) ∧
      ∀ t ∈ (tasks services shutdown).1, Arises shutdown (tasks services shutdown).2 t := by
  let alone := services.map (superviseFrom ⟨some shutdown⟩)
  have names : alone.map (·.1) = services := by
    simp [alone, superviseFrom, Function.comp_def]
  have own : ∀ t ∈ alone, t = superviseFrom ⟨some shutdown⟩ t.1 := by
    intro t found
    obtain ⟨s, -, rfl⟩ := List.mem_map.1 found
    rfl
  have early : ∀ c, alone.foldl (fun c t => earlier c (givenBefore shutdown t)) none = some c →
      c < shutdown := fun c given =>
    let ⟨_, _, gives⟩ := exists_given given
    lt_of_givenBefore gives
  unfold tasks
  dsimp only
  split
  · exact ⟨names, Nat.le_refl _, fun _ => rfl, fun t found =>
      own t found ▸ .supervised t.1 shutdown (.inr rfl)⟩
  · rename_i given
    obtain ⟨same, arise⟩ := firstTurns_arise (early 0 given) own false
    refine ⟨same.trans names, Nat.zero_le _, fun leaves => ?_, arise⟩
    exact nomatch given.symm.trans (none_given leaves)
  · rename_i c _ given
    refine ⟨?_, Nat.le_of_lt (early c given), fun leaves => ?_, fun t found => ?_⟩
    · refine (List.map_map ..).trans (Eq.trans (List.map_congr_left fun t _ => ?_) names)
      rw [Function.comp_apply]
      split <;> rfl
    · exact nomatch given.symm.trans (none_given leaves)
    · -- the service that gives the signal knows of the shutdown, the others of the signal
      obtain ⟨t', found', rfl⟩ := List.mem_map.1 found
      split
      · exact own t' found' ▸ .supervised t'.1 shutdown (.inr rfl)
      · exact .supervised t'.1 c (.inl rfl)

theorem tasks_stop (services : List Service) (shutdown : Nat) :
    (tasks services shutdown).2 =
      ((services.map (superviseFrom ⟨some shutdown⟩)).foldl
        (fun c t => earlier c (givenBefore shutdown t)) none).getD shutdown := by
  unfold tasks
  dsimp only
  split <;> simp_all

/-- The stop signal of a daemon fires at its shutdown, or at the earliest instant before it at which
one of its services, by itself, gives it. -/
theorem Setting.isLeast_stopsAt (x : Setting) (r : Registry) :
    IsLeast (insert x.shutdown (x.given r)) (x.stopsAt r) := by
  unfold Setting.stopsAt
  rw [tasks_stop]
  have least := isLeast_earlier x.shutdown
    (r.services.map (superviseFrom ⟨some x.shutdown⟩)) none
  cases first : (r.services.map (superviseFrom ⟨some x.shutdown⟩)).foldl
      (fun c t => earlier c (givenBefore x.shutdown t)) none with
  | none =>
    rw [first] at least
    refine ⟨.inl rfl, ?_⟩
    rintro c (rfl | ⟨s, registered, gives⟩)
    · exact Nat.le_refl _
    · have never := least.2 (.inr ⟨_, List.mem_map_of_mem registered, rfl⟩)
      rw [gives] at never
      exact absurd (top_le_iff.1 never) (ENat.natCast_ne_top c)
  | some c =>
    rw [first] at least
    obtain ⟨t, among, gives⟩ := exists_given first
    obtain ⟨s, registered, rfl⟩ := List.mem_map.1 among
    refine ⟨.inr ⟨s, registered, gives⟩, ?_⟩
    rintro d (rfl | ⟨s', registered', gives'⟩)
    · exact Nat.le_of_lt (lt_of_givenBefore gives)
    · have before := least.2 (.inr ⟨_, List.mem_map_of_mem registered', rfl⟩)
      rw [gives'] at before
      exact Nat.cast_le.1 before

theorem tell_all {ts : List Task} (each : ∀ t ∈ ts, ∃ l, Tells shutdown stop t l) :
    ∃ lives, List.Forall₂ (Tells shutdown stop) ts lives := by
  induction ts with
  | nil => exact ⟨[], .nil⟩
  | cons t ts ih =>
    obtain ⟨⟨l, here⟩, others⟩ := List.forall_mem_cons.1 each
    obtain ⟨lives, told⟩ := ih others
    exact ⟨l :: lives, .cons here told⟩

theorem services_told {ts : List Task} {lives : List Life}
    (told : List.Forall₂ (Tells shutdown stop) ts lives) :
    lives.map (·.service) = ts.map (·.1) := by
  induction told with
  | nil => rfl
  | cons here _ ih => rw [List.map_cons, List.map_cons, ih, here.service]

theorem led_of_told {ts : List Task} {lives : List Life}
    (told : List.Forall₂ (Tells shutdown stop) ts lives) : ∀ l ∈ lives, l.Led shutdown stop := by
  induction told with
  | nil => exact nofun
  | cons here _ ih => exact List.forall_mem_cons.2 ⟨here.led, ih⟩

/-- In every run of a life the signal fires by the shutdown. -/
theorem Life.Led.fires {l : Life} (led : l.Led shutdown stop) (within : stop ≤ shutdown) :
    ∀ st ∈ l.stints, ∃ c, c ≤ shutdown ∧ st.result.signal.firesAt = some c := by
  obtain ⟨c, no_later, fires⟩ : ∃ c, c ≤ shutdown ∧ l.signal.firesAt = some c := by
    rcases led.under with signal | signal
    · exact ⟨stop, within, by rw [signal]⟩
    · exact ⟨shutdown, Nat.le_refl _, by rw [signal]⟩
  intro st found
  obtain ⟨c', earlier, fires'⟩ := led.chained.fires fires st found
  exact ⟨c', Nat.le_trans earlier no_later, fires'⟩

theorem Life.Led.undisturbed {l : Life} (led : l.Led shutdown shutdown)
    (leaves : l.service.LeavesSignal) :
    l.signal = ⟨some shutdown⟩ ∧ ∀ st ∈ l.stints, st.result.signal = ⟨some shutdown⟩ := by
  have signal : l.signal = ⟨some shutdown⟩ := led.under.elim id id
  exact ⟨signal, signal ▸ led.chained.signal_eq leaves⟩

/-- The tasks of a daemon tell the lives of its services. -/
theorem tasks_tell (shutdown : Nat) (paced : ∀ s ∈ services, s.Paced) :
    ∃ lives, Lived services shutdown (tasks services shutdown).2 lives ∧
      List.Forall₂ (Tells shutdown (tasks services shutdown).2) (tasks services shutdown).1
        lives := by
  obtain ⟨names, within, quiet, arise⟩ := tasks_arise services shutdown
  obtain ⟨lives, told⟩ := tell_all fun t found =>
    (arise t found).tells within (paced t.1 (names ▸ List.mem_map_of_mem found))
  have same : lives.map (·.service) = services := (services_told told).trans names
  refine ⟨lives, ⟨same, within, led_of_told told, fun leaves => ?_⟩, told⟩
  have stop := quiet leaves
  refine ⟨stop, fun l found => ?_⟩
  have led : l.Led shutdown (tasks services shutdown).2 := led_of_told told l found
  rw [stop] at led
  exact led.undisturbed (leaves _ (same ▸ List.mem_map_of_mem found))

end

end ChannelAgent.Daemon
