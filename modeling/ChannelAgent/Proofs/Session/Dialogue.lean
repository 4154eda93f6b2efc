import ChannelAgent.Proofs.Session.Connection
import ChannelAgent.Session.Dialogue

set_option autoImplicit false

namespace ChannelAgent.Session

namespace Dialogue

def spoken (notes : List Note) : List Event :=
  notes.filterMap fun
    | .event e => some e
    | .entry _ => none

@[simp] theorem spoken_append (first second : List Note) :
    spoken (first ++ second) = spoken first ++ spoken second := List.filterMap_append

@[simp] theorem spoken_event (events : List Event) : spoken (events.map .event) = events := by
  rw [spoken, List.filterMap_map]
  exact List.filterMap_some

@[simp] theorem spoken_entry (entries : List Log.Entry) : spoken (entries.map .entry) = [] := by
  rw [spoken, List.filterMap_map]
  exact List.filterMap_eq_nil_iff.2 fun _ _ => rfl

/-- Where the session of a dialogue may be: at work on its connection, in its first pause, or at its
end. -/
inductive Placed (s : State Backoff) : Prop
  | engaged (attached : s.stage.attached = true) (connection : s.connection = some 1)
      (backoff : s.backoff = .standard)
  | pausing (stage : s.stage = .pausing (.ofSeconds 2))
  | finished (stage : s.stage = .finished)

/-- A run in the state of a dialogue, before time has passed. Its stop signal fires after a
millisecond. -/
structure Shadows (d : Dialogue) (script : Script) (r : Run Backoff) : Prop where
  state : r.state = d.state
  script : r.script = script
  properties : r.properties = d.properties
  now : r.now = 0
  signal : r.signal = ⟨some 1⟩
  alive : r.hung = false

/-- By some script, whose handlers give every request back, a run in the state of a dialogue comes
to a state and shows some events on the way. -/
def Leads (d : Dialogue) (last : State Backoff) (shown : List Event) : Prop :=
  ∃ (script : Script) (k : Nat), script.handles = [] ∧ ∀ r, Shadows d script r →
    (r.steps k).1.state = last ∧ (r.steps k).2.map Prod.snd = shown

variable {d next : Dialogue} {script : Script} {r : Run Backoff}

section

variable {last : State Backoff} {shown events : List Event}

theorem Shadows.going (shadows : Shadows d script r) (open_ : d.state.stage ≠ .finished) : r.Going :=
  ⟨shadows.alive, by rw [shadows.state]; exact open_⟩

theorem Shadows.quiet (shadows : Shadows d script r) : r.signal.fired r.now = false := by
  rw [shadows.signal, shadows.now]
  rfl

theorem Leads.refl (d : Dialogue) : Leads d d.state [] :=
  ⟨.refusing .closed, 0, rfl, fun _ shadows => ⟨shadows.state, rfl⟩⟩

/-- The run takes one step to the next dialogue, and a script that goes on from there exists. -/
theorem Leads.of_step (extended : Script → Script) (open_ : d.state.stage ≠ .finished)
    (echoes : ∀ rest : Script, rest.handles = [] → (extended rest).handles = [])
    (step : ∀ rest r, rest.handles = [] → Shadows d (extended rest) r →
      Shadows next rest r.step.1 ∧ r.step.2.map Prod.snd = events)
    (leads : Leads next last shown) : Leads d last (events ++ shown) := by
  obtain ⟨rest, k, echo, leads⟩ := leads
  refine ⟨extended rest, k + 1, echoes rest echo, fun r shadows => ?_⟩
  obtain ⟨shadows', told⟩ := step rest r echo shadows
  obtain ⟨state, more⟩ := leads r.step.1 shadows'
  rw [Run.steps_succ (shadows.going open_)]
  exact ⟨state, by rw [List.map_append, told, more]⟩

/-- Nothing is left to come: the stop signal ends the receive or the pause. -/
theorem Leads.finish (placed : Placed d.state)
    (idle : d.state.stage = .listening ∨ ∃ delay, d.state.stage = .pausing delay) :
    Leads d d.state.finish.1
      ((if d.isWaiting then [.receiving 1] else []) ++ d.state.finish.2) := by
  refine ⟨.refusing .closed, 1, rfl, fun r shadows => ?_⟩
  have quiet := shadows.quiet
  obtain ⟨state, now, signal, script, properties, opened, live, hung⟩ := r
  obtain ⟨rfl, rfl, rfl, rfl, rfl, rfl⟩ := shadows
  cases placed with
  | engaged attached connection =>
    have listening : d.state.stage = .listening := by
      rcases idle with listening | ⟨delay, pausing⟩
      · exact listening
      · simp [pausing, Stage.attached] at attached
    simp [Run.steps, Run.step, Run.receive, listening, quiet, connection, isWaiting,
      Script.nextReceive, Script.refusing, Signal.giveIf, Signal.wait, Run.ending, Run.after, Run.goOn,
      Function.comp_def]
  | pausing stage =>
    have long : Duration.pauseMillis (.ofSeconds 2) = 2000 := rfl
    simp [Run.steps, Run.step, Run.rest, stage, quiet, State.heedsStop, isWaiting, long,
      Signal.wait, Run.goOn, Function.comp_def]
  | finished stage =>
    rcases idle with other | ⟨delay, other⟩ <;> cases stage.symm.trans other

/-- What the session does about what a receive comes to. -/
def reaction (s : State Backoff) : Except TransportError Message → State Backoff × List Event
  | .ok m => heard (.received m) (s.onReceived m)
  | .error e => heard (.receiveFailed e) (s.onReceiveFailed e)

theorem Leads.receive (result : Except TransportError Message)
    (listening : d.state.stage = .listening) (connection : d.state.connection = some 1)
    (same : next.properties = d.properties) (goes : reaction d.state result = (next.state, events))
    (leads : Leads next last shown) : Leads d last ((.receiving 1 :: events) ++ shown) := by
  refine .of_step (fun rest => { rest with receives := ⟨false, some 0, result⟩ :: rest.receives })
    (by simp [listening]) (fun _ echo => echo) (fun rest r _ shadows => ?_) leads
  have quiet := shadows.quiet
  obtain ⟨state, now, signal, script, properties, opened, live, hung⟩ := r
  obtain ⟨rfl, rfl, rfl, rfl, rfl, rfl⟩ := shadows
  cases result with
  | ok | error =>
    obtain ⟨goal, told⟩ := Prod.mk.inj goes
    refine ⟨⟨?_, ?_, ?_, ?_, ?_, ?_⟩, ?_⟩ <;>
      simp [Run.step, Run.receive, listening, quiet, connection, Script.nextReceive, Signal.giveIf,
        Signal.wait, Run.ending, Run.after, Run.goOn, goal, told, same, Function.comp_def]

theorem Leads.handle {id : String} {request : Option Body}
    (handling : d.state.stage = .handling id request) (same : next.properties = d.properties)
    (goes : next.state = d.state.onHandled id (.ok request)) (leads : Leads next last shown) :
    Leads d last
      ([.handling request d.properties false, .handled id (.ok request)] ++ shown) := by
  refine .of_step (fun rest => rest) (by simp [handling]) (fun _ echo => echo)
    (fun rest r echo shadows => ?_) leads
  have quiet := shadows.quiet
  obtain ⟨state, now, signal, script, properties, opened, live, hung⟩ := r
  obtain ⟨rfl, rfl, rfl, rfl, rfl, rfl⟩ := shadows
  obtain ⟨connects, connectDefault, receives, sends, handles⟩ := script
  obtain rfl : handles = [] := echo
  refine ⟨⟨?_, ?_, ?_, ?_, ?_, ?_⟩, ?_⟩ <;>
    simp [Run.step, Run.handle, handling, quiet, State.heedsStop, Script.nextHandle, Signal.giveIf,
      Run.handlerEnding, Run.ending, Run.after, Run.goOn, Reply.result, goes, same]

theorem Leads.send {id : String} {status : Message} (result : Option TransportError)
    (acknowledging : d.state.stage = .acknowledging id status)
    (connection : d.state.connection = some 1) (same : next.properties = d.properties)
    (goes : (match result with
      | none => (d.state.onSent, [])
      | some e => (d.state.onSendFailed e, [Event.sendFailed id e])) = (next.state, events))
    (leads : Leads next last shown) : Leads d last ((.sending 1 status :: events) ++ shown) := by
  refine .of_step (fun rest => { rest with sends := ⟨false, some 0, result⟩ :: rest.sends })
    (by simp [acknowledging]) (fun _ echo => echo) (fun rest r _ shadows => ?_) leads
  have quiet := shadows.quiet
  obtain ⟨state, now, signal, script, properties, opened, live, hung⟩ := r
  obtain ⟨rfl, rfl, rfl, rfl, rfl, rfl⟩ := shadows
  cases result with
  | none | some =>
    obtain ⟨goal, told⟩ := Prod.mk.inj goes
    refine ⟨⟨?_, ?_, ?_, ?_, ?_, ?_⟩, ?_⟩ <;>
      simp [Run.step, Run.send, acknowledging, quiet, State.heedsStop, connection, Script.nextSend,
        Signal.giveIf, Run.ending, Run.after, Run.goOn, goal, ← told, same]

end

/-- The receive that has been noted when a dialogue goes on waiting. -/
def awaiting (waited : Bool) (d : Dialogue) : List Event :=
  if waited && d.isWaiting then [.receiving 1] else []

theorem awaiting_of_not_waiting (waited : Bool) (idle : d.isWaiting = false) :
    awaiting waited d = [] := by
  simp [awaiting, idle]

/-- A run of the session comes where `n` steps of a dialogue come, and shows what they note but for
a receive that is not over. -/
def Follows (n : Nat) (waited : Bool) (d : Dialogue) : Prop :=
  ∃ shown pending, Leads d (d.steps n waited).1.state shown ∧
    awaiting waited d ++ spoken (d.steps n waited).2 = shown ++ pending ∧
      (pending = [] ∨ pending = [.receiving 1] ∧ (d.steps n waited).1.isWaiting = true)

theorem steps_open (open_ : d.state.stage ≠ .finished) (n : Nat) (waited : Bool) :
    (d.steps (n + 1) waited).1 = (d.step.1.steps n (d.isWaiting && d.step.1.isWaiting)).1 ∧
      awaiting waited d ++ spoken (d.steps (n + 1) waited).2 =
        awaiting true d ++ (spoken d.step.2 ++
          spoken (d.step.1.steps n (d.isWaiting && d.step.1.isWaiting)).2) := by
  rw [steps, if_neg open_]
  refine ⟨rfl, ?_⟩
  cases waited <;> cases waits : d.isWaiting <;> simp [awaiting, waits, spoken]

/-- A step that the run takes as well. -/
theorem Follows.of_step {n : Nat} {waited : Bool} (events : List Event)
    (open_ : d.state.stage ≠ .finished) (idle : d.step.1.isWaiting = false ∨ d.isWaiting = false)
    (told : awaiting true d ++ spoken d.step.2 = events)
    (leads : ∀ {last : State Backoff} {shown : List Event},
      Leads d.step.1 last shown → Leads d last (events ++ shown))
    (follows : Follows n false d.step.1) : Follows (n + 1) waited d := by
  obtain ⟨shown, pending, led, same, rest⟩ := follows
  obtain ⟨last, notes⟩ := steps_open open_ n waited
  have waits : (d.isWaiting && d.step.1.isWaiting) = false := by
    rcases idle with idle | idle <;> simp [idle]
  rw [waits] at last notes
  refine ⟨events ++ shown, pending, ?_, ?_, ?_⟩
  · rw [last]
    exact leads led
  · rw [notes, ← List.append_assoc, told, List.append_assoc, ← same]
    rfl
  · rw [last]
    exact rest

theorem steps_finished (stage : d.state.stage = .finished) (n : Nat) (waited : Bool) :
    d.steps n waited = (d, []) := by
  cases n with
  | zero => rfl
  | succ n => rw [steps, if_pos stage]

/-- The last step of a dialogue. -/
theorem Follows.of_end {waited : Bool} (n : Nat) (open_ : d.state.stage ≠ .finished)
    (ended : d.step.1.state.stage = .finished)
    (leads : Leads d d.step.1.state (awaiting true d ++ spoken d.step.2)) :
    Follows (n + 1) waited d := by
  obtain ⟨last, notes⟩ := steps_open open_ n waited
  rw [steps_finished ended] at last notes
  refine ⟨_, [], by rw [last]; exact leads, ?_, .inl rfl⟩
  rw [notes]
  simp [spoken]

theorem Placed.reacts {s : State Backoff} (placed : Placed s) (listening : s.stage = .listening)
    (result : Except TransportError Message) :
    Placed (reaction s result).1 ∧ (reaction s result).1.stage ≠ .listening := by
  cases placed with
  | pausing stage => cases listening.symm.trans stage
  | finished stage => cases listening.symm.trans stage
  | engaged _ connection backoff =>
    have paused : s.backoff.current = .ofSeconds 2 := by rw [backoff]; rfl
    cases result with
    | error e =>
      refine ⟨.pausing ?_, ?_⟩ <;>
        simp [reaction, State.onReceiveFailed, State.reconnect, State.pause, Backoff.next, paused]
    | ok m =>
      simp only [reaction, fst_heard, State.onReceived]
      split
      · refine ⟨.pausing ?_, ?_⟩ <;> simp [State.reconnect, State.pause, Backoff.next, paused]
      · split
        · refine ⟨.pausing ?_, ?_⟩ <;> simp [State.pause, Backoff.next, paused]
        · refine ⟨.engaged rfl connection ?_, by simp⟩
          simp [backoff, Backoff.reset, Backoff.standard, Backoff.new]

/-- The session goes on waiting: the other side sends its next piece or goes away. -/
theorem Follows.of_wait {n : Nat} {waited : Bool} (listening : d.state.stage = .listening)
    (state : d.step.1.state = d.state) (properties : d.step.1.properties = d.properties)
    (silent : spoken d.step.2 = []) (follows : Follows n true d.step.1) :
    Follows (n + 1) waited d := by
  have waiting : d.isWaiting = true := by simp [isWaiting, listening]
  have waits : d.step.1.isWaiting = true := by simp [isWaiting, state, listening]
  have open_ : d.state.stage ≠ .finished := by simp [listening]
  obtain ⟨last, notes⟩ := steps_open open_ n waited
  obtain ⟨shown, pending, ⟨script, k, echo, leads⟩, same, rest⟩ := follows
  rw [waiting, waits, Bool.and_self] at last notes
  refine ⟨shown, pending, ⟨script, k, echo, fun r shadows => ?_⟩, ?_, ?_⟩
  · rw [last]
    exact leads r { shadows with
      state := shadows.state.trans state.symm
      properties := shadows.properties.trans properties.symm }
  · rw [notes, silent, List.nil_append, ← same]
    simp [awaiting, waiting, waits]
  · rw [last]
    exact rest

theorem follows_undecided {n : Nat} {waited : Bool} {entries : List Log.Entry}
    {found : Wire.Received (Except TransportError Message)} {c : Wire.Connection}
    (placed : Placed d.state) (listening : d.state.stage = .listening)
    (received : d.connection.receive = (found, entries, c)) (open_ : ∀ result, found ≠ .item result)
    (ih : ∀ (waited : Bool) {d : Dialogue}, Placed d.state → Follows n waited d) :
    Follows (n + 1) waited d := by
  have waits (state : d.step.1.state = d.state) (properties : d.step.1.properties = d.properties)
      (silent : spoken d.step.2 = []) : Follows (n + 1) waited d :=
    .of_wait listening state properties silent (ih true (by rw [state]; exact placed))
  cases coming : d.coming with
  | cons piece rest =>
    have stepped : d.step =
        (({ d with connection := c.feed piece, coming := rest } : Dialogue), entries.map .entry) := by
      cases found with
      | item result => exact absurd rfl (open_ result)
      | closed | pending => simp [step, listening, receive, received, coming, after]
    refine waits ?_ ?_ ?_ <;> simp [stepped]
  | nil =>
    have stepped : d.step = after (entries.map .entry)
        (if d.leaves then ({ d with connection := c.hangUp, leaves := false }, [])
        else { d with connection := c }.goOn d.state.finish) := by
      cases found with
      | item result => exact absurd rfl (open_ result)
      | closed | pending => simp only [step, listening, receive, received, coming]
    cases leaves : d.leaves with
    | true =>
      refine waits ?_ ?_ ?_ <;> rw [stepped] <;> simp [after, leaves]
    | false =>
      have ended := Leads.finish placed (.inl listening)
      refine .of_end n (by simp [listening]) ?_ ?_ <;> rw [stepped] <;>
        simp only [leaves, after, goOn, Bool.false_eq_true, ↓reduceIte]
      · rfl
      · simpa [awaiting] using ended

theorem follows_listening {n : Nat} {waited : Bool} (placed : Placed d.state)
    (listening : d.state.stage = .listening)
    (ih : ∀ (waited : Bool) {d : Dialogue}, Placed d.state → Follows n waited d) :
    Follows (n + 1) waited d := by
  have waits : awaiting true d = [.receiving 1] := by simp [awaiting, isWaiting, listening]
  have connection : d.state.connection = some 1 := by
    cases placed with
    | engaged _ connection => exact connection
    | pausing stage => cases listening.symm.trans stage
    | finished stage => cases listening.symm.trans stage
  rcases received : d.connection.receive with ⟨result | - | -, entries, c⟩
  · obtain ⟨placed', onward⟩ := placed.reacts listening result
    have taken : d.step = ({ d with connection := c, state := (reaction d.state result).1 },
        entries.map .entry ++ (reaction d.state result).2.map .event) := by
      rw [step, listening]
      simp only [receive, received]
      cases result <;> rfl
    refine .of_step (.receiving 1 :: (reaction d.state result).2) ?_ ?_ ?_ ?_ ?_
    · simp [listening]
    · exact .inl (by simp [taken, isWaiting, onward])
    · rw [taken, waits, spoken_append, spoken_entry, spoken_event]
      rfl
    · intro last shown leads
      rw [taken] at leads
      refine Leads.receive result listening connection ?_ ?_ leads <;> rfl
    · rw [taken]
      exact ih false placed'
  all_goals exact follows_undecided placed listening received nofun ih

theorem follows_handling {n : Nat} {waited : Bool} {id : String} {request : Option Body}
    (handling : d.state.stage = .handling id request) (connection : d.state.connection = some 1)
    (backoff : d.state.backoff = .standard)
    (ih : ∀ (waited : Bool) {d : Dialogue}, Placed d.state → Follows n waited d) :
    Follows (n + 1) waited d := by
  have taken : d.step = ({ d with state := d.state.onHandled id (.ok request) },
      [.event (.handling request d.properties false), .event (.handled id (.ok request))]) := by
    rw [step, handling]
    rfl
  refine .of_step _ (by simp [handling]) (.inr (by simp [isWaiting, handling])) rfl ?_ ?_
  · intro last shown leads
    rw [taken] at leads ⊢
    rw [awaiting_of_not_waiting true (by simp [isWaiting, handling])]
    refine Leads.handle handling ?_ ?_ leads <;> rfl
  · rw [taken]
    exact ih false (.engaged rfl connection backoff)

theorem follows_acknowledging {n : Nat} {waited : Bool} {id : String} {status : Message}
    (acknowledging : d.state.stage = .acknowledging id status)
    (connection : d.state.connection = some 1) (backoff : d.state.backoff = .standard)
    (ih : ∀ (waited : Bool) {d : Dialogue}, Placed d.state → Follows n waited d) :
    Follows (n + 1) waited d := by
  have silent : awaiting true d = [] :=
    awaiting_of_not_waiting true (by simp [isWaiting, acknowledging])
  cases sent : d.connection.send status with
  | ok c =>
    have taken : d.step = ({ d with connection := c, state := d.state.onSent },
        [.event (.sending 1 status)]) := by
      simp only [step, acknowledging, sent]
      rfl
    refine .of_step _ (by simp [acknowledging]) (.inr (by simp [isWaiting, acknowledging])) rfl ?_ ?_
    · intro last shown leads
      rw [taken] at leads ⊢
      rw [silent]
      refine Leads.send none acknowledging connection ?_ ?_ leads <;> rfl
    · rw [taken]
      exact ih false (.engaged rfl connection backoff)
  | error e =>
    have taken : d.step = ({ d with state := d.state.onSendFailed e },
        [.event (.sending 1 status), .event (.sendFailed id e)]) := by
      simp only [step, acknowledging, sent]
      rfl
    refine .of_step _ (by simp [acknowledging]) (.inr (by simp [isWaiting, acknowledging])) rfl ?_ ?_
    · intro last shown leads
      rw [taken] at leads ⊢
      rw [silent]
      refine Leads.send (some e) acknowledging connection ?_ ?_ leads <;> rfl
    · rw [taken]
      exact ih false (.engaged rfl connection backoff)

/-- Whatever its connection says, a dialogue goes on like a run of the session. -/
theorem follows (n : Nat) (waited : Bool) {d : Dialogue} (placed : Placed d.state) :
    Follows n waited d := by
  induction n generalizing waited d with
  | zero =>
    refine ⟨[], awaiting waited d, .refl d, by simp [steps, spoken], ?_⟩
    cases waited <;> cases waiting : d.isWaiting <;> simp [awaiting, waiting, steps]
  | succ n ih =>
    have engaged (attached : d.state.stage.attached = true) :
        d.state.connection = some 1 ∧ d.state.backoff = .standard := by
      cases placed with
      | engaged _ connection backoff => exact ⟨connection, backoff⟩
      | pausing stage | finished stage => simp [stage, Stage.attached] at attached
    cases stage : d.state.stage with
    | listening => exact follows_listening placed stage ih
    | handling id request =>
      obtain ⟨connection, backoff⟩ := engaged (by rw [stage]; rfl)
      exact follows_handling stage connection backoff ih
    | acknowledging id status =>
      obtain ⟨connection, backoff⟩ := engaged (by rw [stage]; rfl)
      exact follows_acknowledging stage connection backoff ih
    | pausing delay =>
      have taken : d.step = d.goOn d.state.finish := by rw [step, stage]
      have ended := Leads.finish placed (.inr ⟨delay, stage⟩)
      refine .of_end n (by simp [stage]) ?_ ?_ <;> rw [taken]
      · rfl
      · simpa [awaiting, goOn] using ended
    | finished =>
      refine ⟨[], [], ?_, ?_, .inl rfl⟩ <;> rw [steps_finished stage]
      · exact .refl d
      · simp [awaiting, isWaiting, stage, spoken]
    | connecting =>
      cases placed with
      | engaged attached => simp [stage, Stage.attached] at attached
      | pausing other => cases stage.symm.trans other
      | finished other => cases stage.symm.trans other

/-- Whatever comes over its connection, and in whatever pieces, a dialogue is a run of the session:
by some script the run comes to the same state and shows the same events, but for a receive that is
not over. -/
theorem run_of_dialogue (connection : Wire.Connection) (coming : List (List UInt8)) (leaves : Bool)
    (properties : CloudProperties) (n : Nat) :
    let (d, opening) := start connection coming leaves properties
    let (last, notes) := d.steps n false
    ∃ script k pending,
      let run := (Run.start Backoff.standard 0 ⟨some 1⟩ script properties).steps k
      run.1.state = last.state ∧
        spoken (opening ++ notes) = run.2.map Prod.snd ++ pending ∧
        (pending = [] ∨ pending = [.receiving 1] ∧ last.isWaiting = true) := by
  have placed : Placed (start connection coming leaves properties).1.state := .engaged rfl rfl rfl
  obtain ⟨shown, pending, ⟨script, k, -, leads⟩, same, rest⟩ := follows n false placed
  let opened := { script with connects := ⟨false, some 0, .ok ()⟩ :: script.connects }
  let first := Run.start Backoff.standard 0 ⟨some 1⟩ opened properties
  have going : first.Going := ⟨rfl, nofun⟩
  have connects : first.step.2.map Prod.snd = [.connecting 0, .connected 1, .reset] := rfl
  obtain ⟨state, told⟩ := leads first.step.1 ⟨rfl, rfl, rfl, rfl, rfl, rfl⟩
  refine ⟨opened, k + 1, pending, ?_, ?_, rest⟩
  · rw [Run.steps_succ going]
    exact state
  · rw [Run.steps_succ going, List.map_append, connects, told, List.append_assoc, ← same]
    rfl

end Dialogue

end ChannelAgent.Session
