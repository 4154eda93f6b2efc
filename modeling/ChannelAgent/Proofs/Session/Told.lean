import ChannelAgent.Proofs.Session.Turn

set_option autoImplicit false

namespace ChannelAgent.Session

namespace Event

def isCall : Event → Bool
  | .connecting _ | .receiving _ | .handling _ _ _ | .sending _ _ => true
  | _ => false

/-- A connect attempt, a receive, a handler call or a failed send is over. -/
def completes : Event → Bool
  | .connected _ | .connectFailed _ | .received _ | .receiveFailed _ | .handled _ _
  | .sendFailed _ _ => true
  | _ => false

/-- Neither a call nor what one came to: the session does it by itself. -/
def isOwn : Event → Bool
  | .reset | .pausing _ | .dropped _ | .stopSignal | .finished => true
  | _ => false

end Event

namespace Script

/-- What is left of a script when a call has taken its step. -/
def past (s : Script) : Event → Script
  | .connecting _ => { s with connects := s.connects.tail }
  | .receiving _ => { s with receives := s.receives.tail }
  | .handling _ _ _ => { s with handles := s.handles.tail }
  | .sending _ _ => { s with sends := s.sends.tail }
  | _ => s

/-- What a call comes to by the step that it takes, and after how long. Of a status message that is
sent nothing is heard. -/
inductive Answers (s : Script) : Event → Nat → List Event → Prop
  | connected {live ms connection : Nat} (takes : s.nextConnect.takes = some ms)
      (result : s.nextConnect.result = .ok ()) :
      Answers s (.connecting live) ms [.connected connection]
  | refused {live ms : Nat} {cause : TransportError} (takes : s.nextConnect.takes = some ms)
      (result : s.nextConnect.result = .error cause) :
      Answers s (.connecting live) ms [.connectFailed cause]
  | received {connection ms : Nat} {m : Message} (takes : s.nextReceive.takes = some ms)
      (result : s.nextReceive.result = .ok m) :
      Answers s (.receiving connection) ms [.received m]
  | lost {connection ms : Nat} {cause : TransportError} (takes : s.nextReceive.takes = some ms)
      (result : s.nextReceive.result = .error cause) :
      Answers s (.receiving connection) ms [.receiveFailed cause]
  /-- A handler that waits for the stop signal takes no less than its step says. -/
  | handled {request : Option Body} {properties : CloudProperties} {stopping : Bool}
      {id : String} {ms took : Nat} (takes : s.nextHandle.1.takes = some ms) (le : ms ≤ took)
      (prompt : s.nextHandle.2 = false → took = ms) :
      Answers s (.handling request properties stopping) took
        [.handled id (s.nextHandle.1.result.result request)]
  | sent {connection ms : Nat} {m : Message} (takes : s.nextSend.takes = some ms)
      (result : s.nextSend.result = none) : Answers s (.sending connection m) ms []
  | unsent {connection ms : Nat} {m : Message} {id : String} {cause : TransportError}
      (takes : s.nextSend.takes = some ms) (result : s.nextSend.result = some cause) :
      Answers s (.sending connection m) ms [.sendFailed id cause]

/-- The step that a call takes has no end of its own. -/
def Endless (s : Script) : Event → Prop
  | .connecting _ => s.nextConnect.takes = none
  | .receiving _ => s.nextReceive.takes = none
  | .handling _ _ _ => s.nextHandle.1.takes = none ∨ s.nextHandle.2 = true
  | .sending _ _ => s.nextSend.takes = none
  | _ => False

end Script

/-- The calls among some events take the steps of a script one after another, each at once comes to
what its step says and to nothing else, and what is left of the script is `left`. Only the last call
may come to nothing: one without an end, or a receive that is given up before its end. -/
inductive Told : Script → List Timed → Script → Prop
  | nothing (s : Script) : Told s [] s
  | own {s left : Script} {e : Timed} {later : List Timed} (own : e.2.isOwn = true)
      (rest : Told s later left) : Told s (e :: later) left
  | answered {s left : Script} {t ms : Nat} {begun : Event} {heard : List Event}
      {later : List Timed} (answers : s.Answers begun ms heard)
      (rest : Told (s.past begun) later left) :
      Told s ((t, begun) :: ((heard.map fun e => (t + ms, e)) ++ later)) left
  | endless {s : Script} {t : Nat} {begun : Event} (never : s.Endless begun) :
      Told s [(t, begun)] (s.past begun)
  | givenUp {s : Script} {t c connection : Nat} {later : List Timed}
      (early : ∀ ms, s.nextReceive.takes = some ms → c ≤ t + ms)
      (silent : ∀ e ∈ later, e.2.isOwn = true) :
      Told s ((t, .receiving connection) :: (c, .finished) :: later)
        { s with receives := s.receives.tail }

theorem Told.append_own {s left : Script} {events later : List Timed}
    (own : ∀ e ∈ events, e.2.isOwn = true) (rest : Told s later left) :
    Told s (events ++ later) left := by
  induction events with
  | nil => exact rest
  | cons e events ih =>
    obtain ⟨first, own⟩ := List.forall_mem_cons.1 own
    exact .own first (ih own)

/-- What a receive comes to, if an event shows it. -/
def Event.receipt? : Event → Option (Except TransportError Message)
  | .received m => some (.ok m)
  | .receiveFailed cause => some (.error cause)
  | _ => none

def receipts (events : List Timed) : List (Except TransportError Message) :=
  events.filterMap fun e => e.2.receipt?

@[simp] theorem receipts_nil : receipts [] = [] := rfl

@[simp] theorem receipts_cons (e : Timed) (rest : List Timed) :
    receipts (e :: rest) = e.2.receipt?.toList ++ receipts rest := by
  unfold receipts
  cases known : e.2.receipt? <;> simp [known]

theorem Event.receipt?_of_isOwn {e : Event} (own : e.isOwn = true) : e.receipt? = none := by
  cases e <;> first | rfl | cases own

theorem receipts_of_own {events : List Timed} (own : ∀ e ∈ events, e.2.isOwn = true) :
    receipts events = [] :=
  List.filterMap_eq_nil_iff.2 fun e found => Event.receipt?_of_isOwn (own e found)

theorem Script.receives_of_takes {s : Script} {ms : Nat} (takes : s.nextReceive.takes = some ms) :
    s.receives = s.nextReceive :: s.receives.tail := by
  unfold nextReceive at takes ⊢
  cases listed : s.receives with
  | nil => simp [listed] at takes
  | cons step more => rfl

/-- A session receives what its script lists, all of it in order up to the last receive. -/
theorem Told.receipts_prefix {s left : Script} {events : List Timed} (told : Told s events left) :
    receipts events <+: s.receives.map (·.result) := by
  induction told with
  | nothing => exact List.nil_prefix
  | own own _ ih =>
    rw [receipts_cons, Event.receipt?_of_isOwn own]
    exact ih
  | @answered s _ _ _ _ _ later answers _ ih =>
    cases answers with
    | received takes result | lost takes result =>
      rw [Script.receives_of_takes takes]
      simp only [List.map_cons, result]
      exact List.cons_prefix_cons.2 ⟨rfl, ih⟩
    | _ => exact ih
  | @endless s t begun never =>
    cases begun with
    | received | receiveFailed => exact never.elim
    | _ => exact List.nil_prefix
  | givenUp _ silent =>
    rw [receipts_cons, receipts_cons, receipts_of_own silent]
    exact List.nil_prefix

variable {β : Type} {r next : Run β}

namespace Run

theorem isOwn_parting (r : Run β) (t : Nat) : ∀ e ∈ r.parting.map fun e => (t, e),
    e.2.isOwn = true := by
  unfold parting
  cases r.state.connection <;> simp [Event.isOwn]

theorem isOwn_reconnecting (r : Run β) (t : Nat) (delay : Duration) :
    ∀ e ∈ (r.parting ++ [Event.pausing delay]).map fun e => (t, e), e.2.isOwn = true := by
  rw [List.map_append]
  exact List.forall_mem_append.2 ⟨r.isOwn_parting t, by simp [Event.isOwn]⟩

theorem past_call {begun : Event} (call : r.call? = some begun) : r.script.past begun = r.spent := by
  unfold call? at call
  split at call <;> cases call <;> rename_i stage <;> simp only [Script.past, spent, stage]

theorem of_ending {takes : Option Nat} {t : Nat} (ends : r.ending takes = some t) :
    ∃ ms, takes = some ms ∧ t = r.now + ms := by
  obtain ⟨ms, takes, rfl⟩ := Option.map_eq_some_iff.1 ends
  exact ⟨ms, takes, rfl⟩

theorem of_handlerEnding {signal : Signal} {t : Nat} (ends : r.handlerEnding signal = some t) :
    ∃ ms took, r.script.nextHandle.1.takes = some ms ∧ t = r.now + took ∧ ms ≤ took ∧
      (r.script.nextHandle.2 = false → took = ms) := by
  unfold handlerEnding at ends
  split at ends
  · rename_i done due waits
    obtain ⟨ms, takes, rfl⟩ := of_ending due
    obtain ⟨c, -, rfl⟩ := Option.map_eq_some_iff.1 ends
    refine ⟨ms, max (r.now + ms) c - r.now, takes, by omega, by omega, ?_⟩
    rw [waits]
    exact nofun
  · obtain ⟨ms, takes, rfl⟩ := of_ending ends
    exact ⟨ms, ms, takes, rfl, Nat.le_refl _, fun _ => rfl⟩

theorem endless_of_never {begun : Event} (call : r.call? = some begun) (never : r.ends = none) :
    r.script.Endless begun := by
  unfold call? at call
  split at call <;> cases call <;> rename_i stage <;>
    simp only [ends, stage, ending, Option.map_eq_none_iff] at never
  · exact never
  · exact never
  · unfold handlerEnding at never
    split at never
    · exact .inr ‹_›
    · rename_i done _
      exact .inl (Option.map_eq_none_iff.1 never)
  · exact never

/-- A call is answered, and then come events of the session's own. -/
theorem told_answer {t ms : Nat} {begun : Event} {heard : List Event} {later : List Timed}
    {left : Script} (own : List Timed) (call : r.call? = some begun) (due : t = r.now + ms)
    (answers : r.script.Answers begun ms heard) (silent : ∀ e ∈ own, e.2.isOwn = true)
    (rest : Told r.spent later left) :
    Told r.script ((r.now, begun) :: ((heard.map fun e => (t, e)) ++ (own ++ later))) left := by
  subst due
  refine .answered answers (.append_own silent ?_)
  rwa [past_call call]

theorem call_listening (stage : r.state.stage = .listening) :
    r.call? = some (.receiving r.current) := by simp only [call?, stage]

theorem Reaches.of_listening {t : Nat} (reaches : r.Reaches t)
    (stage : r.state.stage = .listening) :
    ∃ ms, r.script.nextReceive.takes = some ms ∧ t = r.now + ms := by
  have due := reaches.1
  simp only [ends, stage] at due
  exact of_ending due

end Run

variable [RetryPolicy β] {events : List Timed}

/-- A turn takes the next step of the script for its call and tells what that says. -/
theorem Turn.told {later : List Timed} {left : Script} (turn : Turn r next events)
    (ended : ¬ next.Going → later = []) (rest : Told next.script later left) :
    Told r.script (events ++ later) left := by
  cases turn with
  | heeded | roused =>
    exact .append_own (List.forall_mem_cons.2 ⟨rfl, r.isOwn_parting _⟩) rest
  | resumed | retrying => exact rest
  | endless _ call never =>
    rw [ended (by simp [Run.Going])] at rest ⊢
    cases rest
    rw [← Run.past_call call]
    exact .endless (Run.endless_of_never call never)
  | interrupted stage _ misses =>
    rw [ended (by simp [Run.Going])] at rest ⊢
    cases rest
    rw [← Run.past_call (Run.call_listening stage), List.append_nil]
    refine .givenUp (fun ms takes => ?_) (r.isOwn_parting _)
    exact (misses.2 _ (by simp only [Run.ends, stage, Run.ending, takes, Option.map_some])).2
  | connected stage _ ends result =>
    have call : r.call? = some (.connecting r.live) := by simp only [Run.call?, stage]
    simp only [Run.ends, stage] at ends
    obtain ⟨ms, takes, due⟩ := Run.of_ending ends
    exact Run.told_answer [_] call due (.connected takes result) (by simp [Event.isOwn]) rest
  | refused stage _ ends result =>
    have call : r.call? = some (.connecting r.live) := by simp only [Run.call?, stage]
    simp only [Run.ends, stage] at ends
    obtain ⟨ms, takes, due⟩ := Run.of_ending ends
    exact Run.told_answer [_] call due (.refused takes result) (by simp [Event.isOwn]) rest
  | unlabelled stage _ reaches result =>
    obtain ⟨ms, takes, due⟩ := reaches.of_listening stage
    exact Run.told_answer _ (Run.call_listening stage) due (.received takes result)
      (r.isOwn_reconnecting _ _) rest
  | unidentified stage _ reaches result | requested stage _ reaches result =>
    obtain ⟨ms, takes, due⟩ := reaches.of_listening stage
    exact Run.told_answer [_] (Run.call_listening stage) due (.received takes result)
      (by simp [Event.isOwn]) rest
  | lost stage _ reaches result =>
    obtain ⟨ms, takes, due⟩ := reaches.of_listening stage
    exact Run.told_answer _ (Run.call_listening stage) due (.lost takes result)
      (r.isOwn_reconnecting _ _) rest
  | @handled _ _ request stage ends =>
    have call : r.call? = some (.handling request r.properties (r.signal.fired r.now)) := by
      simp only [Run.call?, stage]
    simp only [Run.ends, stage] at ends
    obtain ⟨ms, took, takes, due, le, prompt⟩ := Run.of_handlerEnding ends
    exact Run.told_answer [] call due (.handled takes le prompt) (List.forall_mem_nil _) rest
  | @sent _ _ status stage ends result =>
    have call : r.call? = some (.sending r.current status) := by simp only [Run.call?, stage]
    simp only [Run.ends, stage] at ends
    obtain ⟨ms, takes, due⟩ := Run.of_ending ends
    exact Run.told_answer [] call due (.sent takes result) (List.forall_mem_nil _) rest
  | @unsent _ _ status _ stage ends result =>
    have call : r.call? = some (.sending r.current status) := by simp only [Run.call?, stage]
    simp only [Run.ends, stage] at ends
    obtain ⟨ms, takes, due⟩ := Run.of_ending ends
    exact Run.told_answer [] call due (.unsent takes result) (List.forall_mem_nil _) rest

/-- The calls of a run take the steps of its script in their order and come to what those say. -/
theorem steps_told (n : Nat) (r : Run β) : Told r.script (r.steps n).2 (r.steps n).1.script := by
  induction n generalizing r with
  | zero => exact .nothing _
  | succ n ih =>
    by_cases going : r.Going
    · rw [Run.steps_succ going]
      refine (Run.turn going).told (fun ended => ?_) (ih r.step.1)
      rw [Run.steps_of_not_going ended]
    · rw [Run.steps_of_not_going going]
      exact .nothing _

end ChannelAgent.Session
