import ChannelAgent.Proofs.Session.Delays
import ChannelAgent.Proofs.Session.Translation

set_option autoImplicit false

namespace ChannelAgent.Session

/-- An event among connections that are numbered on from `k`. -/
def Event.renumbered (k : Nat) : Event → Event
  | .connected connection => .connected (connection + k)
  | .receiving connection => .receiving (connection + k)
  | .sending connection m => .sending (connection + k) m
  | .dropped connection => .dropped (connection + k)
  | e => e

def renumbered (k : Nat) (events : List Timed) : List Timed :=
  events.map fun e => (e.1, e.2.renumbered k)

def State.renumbered (k : Nat) (s : State Backoff) : State Backoff :=
  { s with connection := s.connection.map (· + k) }

/-- Nothing but the numbers of the connections changes. -/
def Translation.numbering (k : Nat) : Translation where
  offset := k
  body := id
  message := id
  reply := id
  body_none := rfl
  hasLabels_message _ := rfl
  operationId?_message _ := rfl
  body_message _ := rfl
  reply_echo := rfl
  result_reply p request := by cases p <;> rfl

theorem Translation.event_numbering (k : Nat) : (numbering k).event = Event.renumbered k := by
  funext e
  cases e with
  | handled id result => cases result <;> rfl
  | _ => rfl

theorem Translation.events_numbering (k : Nat) :
    (numbering k).events = Session.renumbered k := by
  funext l
  rw [events, event_numbering]
  rfl

theorem Translation.state_numbering (k : Nat) (s : State Backoff) :
    (numbering k).state s = s.renumbered k := by
  obtain ⟨stage, connection, backoff, lastFailure⟩ := s
  cases stage <;> rfl

theorem Translation.script_numbering (k : Nat) (s : Script) : (numbering k).script s = s := by
  have received (step : Step (Except TransportError Message)) :
      (numbering k).received step = step := by
    obtain ⟨stops, takes, _ | m⟩ := step <;> rfl
  have receives := List.map_id'' received s.receives
  have handles : s.handles.map (numbering k).handled = s.handles := List.map_id s.handles
  rw [script, receives, handles]

namespace Run

def renumbered (k : Nat) (r : Run Backoff) : Run Backoff :=
  { r with state := r.state.renumbered k, opened := r.opened + k }

theorem run_numbering (k : Nat) : (Translation.numbering k).run = Run.renumbered k := by
  funext r
  simp only [Translation.run, Translation.state_numbering, Translation.script_numbering]
  rfl

/-- A run does not depend on the numbers of connections. -/
theorem steps_renumbered {r : Run Backoff} (k n : Nat) (attached : r.Attached) :
    (r.renumbered k).steps n = (r.steps n).map (Run.renumbered k) (Session.renumbered k) := by
  have steps := (Translation.numbering k).steps_run n attached
  rwa [run_numbering, Translation.events_numbering] at steps

/-- A run shows what another one shows, among connections that are numbered on from `k`: after any
number of steps the same events at the same instants, and the same result. -/
def Alike (k : Nat) (r fresh : Run Backoff) : Prop :=
  ∀ n, (r.steps n).2 = Session.renumbered k (fresh.steps n).2 ∧
    (r.steps n).1.state.result = (fresh.steps n).1.state.result ∧
    (r.steps n).1.now = (fresh.steps n).1.now

/-- The first connection of a run is asked for and refused. -/
structure RefusedFirst (now : Nat) (signal : Signal) (script : Script) : Prop where
  unstopped : signal.fired now = false
  answered : script.nextConnect.takes.isSome = true
  refused : ∃ cause, script.nextConnect.result = .error cause

/-- A later run of a session is the first run of a new one that has its backoff. -/
theorem steps_again (earlier : Run Backoff) (signal : Signal) (script : Script)
    (properties : CloudProperties) (n : Nat) :
    (earlier.again signal script properties).steps n =
      ((start earlier.state.backoff earlier.now signal script properties).steps n).map
        (Run.renumbered earlier.opened) (Session.renumbered earlier.opened) := by
  have same : earlier.again signal script properties =
      (start earlier.state.backoff earlier.now signal script properties).renumbered
        earlier.opened := by
    simp [again, start, State.start, Run.renumbered, State.renumbered]
  have unattached : (start earlier.state.backoff earlier.now signal script properties).Attached :=
    nofun
  rw [same, steps_renumbered earlier.opened n unattached]

section

variable {now : Nat} {signal : Signal} {script : Script} (properties : CloudProperties)

theorem step_start_of_fired (fired : signal.fired now = true) (policy : Backoff) :
    (start policy now signal script properties).step =
      ({ start policy now signal script properties with
          state := { State.start policy with stage := .finished } }, [(now, .finished)]) := by
  simp [step, start, State.start, State.heedsStop, State.finish, goOn, liveAfter, fired]

theorem step_start_of_quiet (quiet : signal.fired now = false) (policy : Backoff) :
    (start policy now signal script properties).step =
      (start policy now signal script properties).connect := by
  simp [step, start, State.start, quiet]

theorem refused_pauses (refused : RefusedFirst now signal script) :
    ∃ t cause, ∀ policy : Backoff, ((start policy now signal script properties).steps 1).2 =
      [(now, .connecting 0), (t, .connectFailed cause), (t, .pausing policy.current)] := by
  obtain ⟨ms, takes⟩ := Option.isSome_iff_exists.1 refused.answered
  obtain ⟨cause, result⟩ := refused.refused
  refine ⟨now + ms, cause, fun policy => ?_⟩
  have going : (start policy now signal script properties).Going := ⟨rfl, nofun⟩
  rw [steps_succ going, step_start_of_quiet properties refused.unstopped]
  simp [connect, start, State.start, steps, ending, takes, result, after, goOn,
    State.onConnectFailed, State.pause, Backoff.next]

/-- Unless it is refused, what a run shows first does not depend on its interval, and a new
connection resets that. -/
theorem start_alike (accepted : ¬ RefusedFirst now signal script) {policy other : Backoff}
    (resets : policy.reset = other.reset) (n : Nat) :
    ((start policy now signal script properties).steps n).2 =
        ((start other now signal script properties).steps n).2 ∧
      ((start policy now signal script properties).steps n).1.state.result =
        ((start other now signal script properties).steps n).1.state.result ∧
      ((start policy now signal script properties).steps n).1.now =
        ((start other now signal script properties).steps n).1.now := by
  cases n with
  | zero => exact ⟨rfl, rfl, rfl⟩
  | succ n =>
    have going (policy : Backoff) : (start policy now signal script properties).Going :=
      ⟨rfl, nofun⟩
    rw [steps_succ (going policy), steps_succ (going other)]
    -- stopped or unanswered runs go no further; only a connected one does, and it has just been reset
    cases fired : signal.fired now with
    | true =>
      rw [step_start_of_fired properties fired, step_start_of_fired properties fired]
      rw [steps_of_not_going fun going => going.2 rfl, steps_of_not_going fun going => going.2 rfl]
      exact ⟨rfl, rfl, rfl⟩
    | false =>
      rw [step_start_of_quiet properties fired, step_start_of_quiet properties fired]
      cases takes : script.nextConnect.takes with
      | none =>
        have hangs (policy : Backoff) :
            ¬ (start policy now signal script properties).connect.1.Going := by
          simp [connect, start, ending, takes, after, Going]
        rw [steps_of_not_going (hangs policy), steps_of_not_going (hangs other)]
        simp [connect, start, ending, takes, after, State.result, State.start]
      | some ms =>
        cases result : script.nextConnect.result with
        | error cause => exact absurd ⟨fired, by rw [takes]; rfl, cause, result⟩ accepted
        | ok _ =>
          have same : (start policy now signal script properties).connect =
              (start other now signal script properties).connect := by
            simp [connect, start, ending, takes, result, after, goOn, State.start,
              State.onConnected, resets]
          rw [same]
          exact ⟨rfl, rfl, rfl⟩

end

end Run

/-- A run leaves the backoff as its events ask. -/
theorem backoff_steps (policy : Backoff) (now : Nat) (signal : Signal) (script : Script)
    (properties : CloudProperties) (n : Nat) :
    let run := (Run.start policy now signal script properties).steps n
    run.1.state.backoff = policy.after (asked run.2) := by
  intro run
  have start : Obeyed policy [] (Run.start policy now signal script properties) := ⟨rfl, rfl⟩
  have obeyed : Obeyed policy run.2 run.1 := steps_keep start (fun _ _ _ _ => Obeyed.turn) n
  rw [obeyed.backoff, obeyed.done]

/-- After any part of any first run of a session, a second run shows what the run of a new session
with the same parameters shows, just if what the first one asked of the backoff leaves it at its
first interval, or the second one is not refused its first connection. -/
theorem rerun_alike_iff (initial maximum : Duration) (multiplier : UInt32) (began : Nat)
    (signal signal' : Signal) (script script' : Script) (properties properties' : CloudProperties)
    (n : Nat) :
    let policy := Backoff.new initial multiplier maximum
    let (earlier, events) := (Run.start policy began signal script properties).steps n
    (earlier.again signal' script' properties').Alike earlier.opened
        (Run.start policy earlier.now signal' script' properties') ↔
      (policy.after (asked events)).current = policy.current ∨
        ¬ Run.RefusedFirst earlier.now signal' script' := by
  intro policy
  have left := backoff_steps policy began signal script properties n
  generalize (Run.start policy began signal script properties).steps n = first at left ⊢
  obtain ⟨earlier, events⟩ := first
  have follows : (policy.after (asked events)).Follows initial multiplier maximum :=
    Backoff.follows_new.after _
  constructor
  · intro alike
    by_cases refused : Run.RefusedFirst earlier.now signal' script'
    · left
      obtain ⟨t, cause, pauses⟩ := Run.refused_pauses properties' refused
      -- the first step tells already: both runs pause, each for its own interval
      have shown := (alike 1).1
      rw [Run.steps_again, left, Prod.map_snd, pauses, pauses] at shown
      simpa [renumbered, Event.renumbered] using shown
    · exact .inr refused
  · rintro (same | accepted) m
    · have backoff : policy.after (asked events) = policy :=
        follows.eq_of_current Backoff.follows_new same
      rw [Run.steps_again, left, backoff]
      exact ⟨rfl, rfl, rfl⟩
    · obtain ⟨events, result, now⟩ := Run.start_alike properties' accepted
        (follows.reset_eq Backoff.follows_new) m
      rw [Run.steps_again, left, Prod.map_snd, Prod.map_fst, events]
      exact ⟨rfl, result, now⟩

/-- The token is cancelled at the first connect, which is refused. -/
def cancelledAndRefused : Script :=
  { Script.refusing .closed with connects := [⟨true, some 0, .error .closed⟩] }

/-- The first run is cancelled at its first connect and refused, and ends in its pause at once. The
second one begins with a pause of four seconds, where a new session pauses for two. -/
theorem rerun_pauses_longer :
    let earlier := ((Run.start Backoff.standard 0 .silent cancelledAndRefused {}).steps 2).1
    let second := earlier.again .silent (.refusing .closed) {}
    let fresh := Run.start Backoff.standard earlier.now .silent (.refusing .closed) {}
    earlier.state.stage = .finished ∧
      (second.steps 1).2 = [(0, .connecting 0), (0, .connectFailed .closed),
        (0, .pausing (.ofSeconds 4))] ∧
      (fresh.steps 1).2 = [(0, .connecting 0), (0, .connectFailed .closed),
        (0, .pausing (.ofSeconds 2))] ∧
      ¬ second.Alike earlier.opened fresh := by
  intro earlier second fresh
  have longer : (second.steps 1).2 = [(0, .connecting 0), (0, .connectFailed .closed),
      (0, .pausing (.ofSeconds 4))] := rfl
  have shorter : (fresh.steps 1).2 = [(0, .connecting 0), (0, .connectFailed .closed),
      (0, .pausing (.ofSeconds 2))] := rfl
  refine ⟨rfl, longer, shorter, fun alike => ?_⟩
  have shown := (alike 1).1
  rw [longer, shorter] at shown
  simp only [renumbered, List.map_cons, List.map_nil, Event.renumbered, List.cons.injEq, Prod.mk.injEq,
    Event.pausing.injEq] at shown
  exact absurd shown.2.2.1.2 (by decide)

end ChannelAgent.Session
