import ChannelAgent.Proofs.Backoff
import ChannelAgent.Proofs.Session.Connection

set_option autoImplicit false

namespace ChannelAgent.Session

namespace Event

/-- What an event asks of the backoff. A message without labels has no operation id either. -/
def asks? : Event → Option Backoff.Move
  | .connectFailed _ | .receiveFailed _ => some .advance
  | .connected _ => some .reset
  | .received m => if m.operationId? = none then some .advance else some .reset
  | _ => none

def made? : Event → Option Backoff.Move
  | .pausing _ => some .advance
  | .reset => some .reset
  | _ => none

def isPausing : Event → Bool
  | .pausing _ => true
  | _ => false

end Event

/-- What some events ask of the backoff, in their order. -/
def asked (events : List Timed) : List Backoff.Move := events.filterMap fun e => e.2.asks?

/-- The calls of the backoff among some events, in their order. -/
def made (events : List Timed) : List Backoff.Move := events.filterMap fun e => e.2.made?

def pauses (events : List Timed) : Nat := events.countP fun e => e.2.isPausing

/-- No event asks for a reset. -/
def Unreset (events : List Timed) : Prop := ∀ e ∈ events, e.2.asks? ≠ some .reset

/-- The length of a pause in nanoseconds, by what stands before it. The interval at the start of the
run is `begun`. -/
structure Measured (initial : Duration) (multiplier : UInt32) (maximum begun : Duration)
    (before : List Timed) (delay : Duration) : Prop where
  sinceReset : ∀ earlier reset since, before = earlier ++ reset :: since →
    reset.2.asks? = some .reset → Unreset since →
      delay.toNanos =
        min (min initial.toNanos maximum.toNanos * multiplier.toNat ^ pauses since) maximum.toNanos
  sinceStart : Unreset before →
    delay.toNanos = min (begun.toNanos * multiplier.toNat ^ pauses before) maximum.toNanos

/-- What follows a pause that begins at an instant, seen from a later run: a connect attempt or a
receive at its end, to the nanosecond if the clock can represent it, or the stop signal before. -/
def GoesOn (last : Run Backoff) (t : Nat) (delay : Duration) (later : List Timed) : Prop :=
  ∃ next rest, later = next :: rest ∧
    (next.2.seeks = true ∧ next.1 = t + delay.pauseMillis ∧
        (delay.Representable → (next.1 - t) * 1000000 = delay.toNanos) ∨
      next.2 = .finished ∧ next.1 ≤ t + delay.pauseMillis ∧ last.signal.fired next.1 = true)

def Resumed (last : Run Backoff) (_before : List Timed) (e : Timed) (later : List Timed) : Prop :=
  ∀ delay, e.2 = .pausing delay → GoesOn last e.1 delay later

/-- Each call of the backoff answers the event that asked for it last. -/
structure Prompt (policy : Backoff) (before : List Timed) (e : Timed) : Prop where
  settled : e.2.asks?.isSome = true → made before = asked before
  due : ∀ call, e.2.made? = some call → asked before = made before ++ [call]
  current : ∀ delay, e.2 = .pausing delay → delay = (policy.after (made before)).current

/-- The backoff has done what the events so far asked of it. -/
structure Obeyed (policy : Backoff) (past : List Timed) (r : Run Backoff) : Prop where
  done : made past = asked past
  backoff : r.state.backoff = policy.after (made past)

@[simp] theorem State.delay_backoff (s : State Backoff) : s.delay = s.backoff.current := rfl

@[simp] theorem asked_nil : asked [] = [] := rfl

@[simp] theorem asked_cons (e : Timed) (rest : List Timed) :
    asked (e :: rest) = e.2.asks?.toList ++ asked rest := by
  unfold asked
  cases known : e.2.asks? <;> simp [known]

@[simp] theorem asked_append (first second : List Timed) :
    asked (first ++ second) = asked first ++ asked second :=
  List.filterMap_append

@[simp] theorem made_nil : made [] = [] := rfl

@[simp] theorem made_cons (e : Timed) (rest : List Timed) :
    made (e :: rest) = e.2.made?.toList ++ made rest := by
  unfold made
  cases known : e.2.made? <;> simp [known]

@[simp] theorem made_append (first second : List Timed) :
    made (first ++ second) = made first ++ made second :=
  List.filterMap_append

@[simp] theorem asked_parting (r : Run Backoff) (t : Nat) :
    asked (r.parting.map fun e => (t, e)) = [] :=
  r.filterMap_parting t (fun _ => rfl)

@[simp] theorem made_parting (r : Run Backoff) (t : Nat) : made (r.parting.map fun e => (t, e)) = [] :=
  r.filterMap_parting t (fun _ => rfl)

theorem Run.of_mem_parting (r : Run Backoff) {t : Nat} {e : Timed}
    (found : e ∈ r.parting.map fun e => (t, e)) : ∃ connection, e = (t, .dropped connection) := by
  obtain ⟨shown, dropped, rfl⟩ := List.mem_map.1 found
  cases connection : r.state.connection with
  | none => simp [parting, connection] at dropped
  | some c => exact ⟨c, by simpa [parting, connection] using dropped⟩

theorem pauses_eq (events : List Timed) : pauses events = (made events).count .advance := by
  induction events with
  | nil => rfl
  | cons e rest ih =>
    have here : (if e.2.isPausing then 1 else 0) = e.2.made?.toList.count .advance := by
      cases e.2 <;> rfl
    rw [made_cons, List.count_append, ← ih, ← here, Nat.add_comm]
    exact List.countP_cons

theorem Event.made?_of_asks? {e : Event} {call : Backoff.Move} (asks : e.asks? = some call) :
    e.made? = none := by
  cases e <;> first | rfl | cases asks

theorem asked_of_unreset {events : List Timed} (unreset : Unreset events) :
    ∀ call ∈ asked events, call = .advance := by
  intro call found
  obtain ⟨e, present, asks⟩ := List.mem_filterMap.1 found
  cases call with
  | advance => rfl
  | reset => exact absurd asks (unreset e present)

theorem Obeyed.turn {policy : Backoff} {past events : List Timed} {r next : Run Backoff}
    (turn : Turn r next events) (obeyed : Obeyed policy past r) :
    Obeyed policy (past ++ events) next := by
  obtain ⟨done, backoff⟩ := obeyed
  cases turn with
  | endless _ call =>
    unfold Run.call? at call
    split at call <;> cases call <;>
      exact ⟨by simp [done, Event.asks?, Event.made?], by simp [backoff, Event.made?]⟩
  | unlabelled _ _ _ _ bare =>
    have anonymous := Message.operationId?_of_bare bare
    exact ⟨by simp [done, anonymous, Event.asks?, Event.made?],
      by simp [backoff, Event.made?, Backoff.move]⟩
  | unidentified _ _ _ _ _ anonymous =>
    exact ⟨by simp [done, anonymous, Event.asks?, Event.made?],
      by simp [backoff, Event.made?, Backoff.move]⟩
  | requested _ _ _ _ identified =>
    exact ⟨by simp [done, identified, Event.asks?, Event.made?],
      by simp [backoff, Event.made?, Backoff.move]⟩
  | connected | refused | lost =>
    exact ⟨by simp [done, Event.asks?, Event.made?], by simp [backoff, Event.made?, Backoff.move]⟩
  | _ => exact ⟨by simp [done, Event.asks?, Event.made?], by simp [backoff, Event.made?]⟩

section Placing

variable {policy : Backoff} {before past rest : List Timed} {e : Timed} {r : Run Backoff}

theorem Prompt.idle (unasked : e.2.asks? = none) (unmade : e.2.made? = none) :
    Prompt policy before e where
  settled asks := by simp [unasked] at asks
  due call makes := by simp [unmade] at makes
  current delay pausing := by simp [Event.made?, pausing] at unmade

theorem Prompt.asking (settled : made before = asked before) (unmade : e.2.made? = none) :
    Prompt policy before e where
  settled _ := settled
  due call makes := by simp [unmade] at makes
  current delay pausing := by simp [Event.made?, pausing] at unmade

theorem Prompt.resetting {t : Nat} (due : asked before = made before ++ [.reset]) :
    Prompt policy before (t, .reset) where
  settled := nofun
  due call makes := by
    obtain rfl := Option.some.inj makes
    exact due
  current := nofun

theorem Prompt.pausing {t : Nat} {delay : Duration}
    (due : asked before = made before ++ [.advance])
    (current : delay = (policy.after (made before)).current) :
    Prompt policy before (t, .pausing delay) where
  settled := nofun
  due call makes := by
    obtain rfl := Option.some.inj makes
    exact due
  current delay' same := by
    obtain rfl := Event.pausing.inj same
    exact current

/-- Nothing is asked of the backoff when a connection is dropped. -/
theorem placed_parting (t : Nat) :
    Trace.Placed (fun before e _ => Prompt policy before e) rest past
      (r.parting.map fun e => (t, e)) := by
  refine .of_forall fun e found _ _ => ?_
  obtain ⟨connection, rfl⟩ := r.of_mem_parting found
  exact .idle rfl rfl

/-- The loss of a connection: it is dropped, and the pause begins. -/
theorem Obeyed.placed_loss {loss : Event} (obeyed : Obeyed policy past r) (t : Nat)
    (asks : loss.asks? = some .advance) :
    Trace.Placed (fun before e _ => Prompt policy before e) rest past
      ((r.now, .receiving r.current) :: (t, loss) ::
        (r.parting ++ [Event.pausing r.state.delay]).map fun e => (t, e)) := by
  have unmade := Event.made?_of_asks? asks
  have called : (Event.receiving r.current).asks? = none ∧
      (Event.receiving r.current).made? = none := ⟨rfl, rfl⟩
  refine ⟨.idle rfl rfl, .asking (by simp [obeyed.done, called]) unmade, ?_⟩
  rw [List.map_append]
  refine .append (placed_parting t) ⟨.pausing ?_ ?_, trivial⟩
  · simp [obeyed.done, called, asks, unmade]
  · simp [obeyed.backoff, called, unmade]

/-- The events of a step stand in their places among those before them. -/
theorem placed_prompt (going : r.Going) (obeyed : Obeyed policy past r) :
    Trace.Placed (fun before e _ => Prompt policy before e) rest past r.step.2 := by
  have turn := Run.turn going
  generalize r.step.1 = next at turn
  generalize r.step.2 = events at turn ⊢
  have done := obeyed.done
  have backoff := obeyed.backoff
  cases turn with
  | heeded | roused => exact ⟨.idle rfl rfl, placed_parting _⟩
  | interrupted => exact ⟨.idle rfl rfl, .idle rfl rfl, placed_parting _⟩
  | endless _ call =>
    unfold Run.call? at call
    split at call <;> cases call <;> exact ⟨.idle rfl rfl, trivial⟩
  | connected =>
    refine ⟨.idle rfl rfl, .asking ?_ rfl, .resetting ?_, trivial⟩ <;>
      simp [done, Event.asks?, Event.made?]
  | refused =>
    refine ⟨.idle rfl rfl, .asking ?_ rfl, .pausing ?_ ?_, trivial⟩
    · simp [done, Event.asks?, Event.made?]
    · simp [done, Event.asks?, Event.made?]
    · simp [backoff, Event.made?]
  | unlabelled _ _ _ _ bare =>
    exact obeyed.placed_loss _ (by simp [Event.asks?, Message.operationId?_of_bare bare])
  | lost => exact obeyed.placed_loss _ rfl
  | unidentified _ _ _ _ _ anonymous =>
    refine ⟨.idle rfl rfl, .asking ?_ rfl, .pausing ?_ ?_, trivial⟩
    · simp [done, Event.asks?, Event.made?]
    · simp [done, anonymous, Event.asks?, Event.made?]
    · simp [backoff, Event.made?]
  | requested _ _ _ _ identified =>
    refine ⟨.idle rfl rfl, .asking ?_ rfl, .resetting ?_, trivial⟩
    · simp [done, Event.asks?, Event.made?]
    · simp [done, identified, Event.asks?, Event.made?]
  | handled | unsent => exact ⟨.idle rfl rfl, .idle rfl rfl, trivial⟩
  | sent => exact ⟨.idle rfl rfl, trivial⟩
  | resumed | retrying => exact trivial

/-- A pause ends as `resumes` says. -/
theorem goesOn {delay : Duration} (n : Nat) (alive : r.hung = false)
    (stage : r.state.stage = .pausing delay) :
    GoesOn (r.steps (n + 2)).1 r.now delay (r.steps (n + 2)).2 := by
  obtain ⟨next, more, found, follows⟩ := resumes n alive stage
  refine ⟨next, more, found, ?_⟩
  rcases follows with rfl | stops
  · have seeks : r.sought.seeks = true := by
      unfold Run.sought
      split <;> rfl
    refine .inl ⟨seeks, rfl, fun fits => ?_⟩
    rw [Nat.add_sub_cancel_left]
    exact Duration.pauseMillis_of_representable fits
  · exact .inr stops

/-- Every pause of a step goes on, given two more steps. -/
theorem placed_resumed (n : Nat) (going : r.Going) :
    Trace.Placed (Resumed (r.step.1.steps (n + 2)).1) (r.step.1.steps (n + 2)).2 past r.step.2 := by
  have turn := Run.turn going
  generalize r.step.1 = next at turn ⊢
  generalize r.step.2 = events at turn ⊢
  have parting (t : Nat) {last : Run Backoff} {rest past : List Timed} :
      Trace.Placed (Resumed last) rest past (r.parting.map fun e => (t, e)) := by
    refine .of_forall fun e found _ _ => ?_
    obtain ⟨connection, rfl⟩ := r.of_mem_parting found
    exact nofun
  have pausing {last : Run Backoff} {t : Nat} {delay : Duration} {before later : List Timed}
      (on : GoesOn last t delay later) : Resumed last before (t, .pausing delay) later := by
    intro delay' same
    obtain rfl := Event.pausing.inj same
    exact on
  cases turn with
  | heeded | roused => exact ⟨nofun, parting _⟩
  | interrupted => exact ⟨nofun, nofun, parting _⟩
  | endless _ call =>
    unfold Run.call? at call
    split at call <;> cases call <;> exact ⟨nofun, trivial⟩
  | refused | unidentified => exact ⟨nofun, nofun, pausing (goesOn n going.1 rfl), trivial⟩
  | unlabelled | lost =>
    refine ⟨nofun, nofun, ?_⟩
    rw [List.map_append]
    exact .append (parting _) ⟨pausing (goesOn n going.1 rfl), trivial⟩
  | connected | requested => exact ⟨nofun, nofun, nofun, trivial⟩
  | handled | unsent => exact ⟨nofun, nofun, trivial⟩
  | sent => exact ⟨nofun, trivial⟩
  | resumed | retrying => exact trivial

theorem replicate_of_advances {calls : List Backoff.Move}
    (advances : ∀ call ∈ calls, call = .advance) :
    calls = List.replicate (calls.count .advance) .advance := by
  rw [List.eq_replicate_iff]
  exact ⟨(List.count_eq_length.2 fun call found => (advances call found).symm).symm, advances⟩

/-- What stands before a pause says how long it is. -/
theorem measured {initial maximum : Duration} {multiplier : UInt32} {t : Nat} {delay : Duration}
    (follows : policy.Follows initial multiplier maximum)
    (prompt : Prompt policy before (t, .pausing delay))
    (prompts : ∀ earlier e since, before = earlier ++ e :: since → Prompt policy earlier e) :
    Measured initial multiplier maximum policy.current before delay := by
  have due := prompt.due .advance rfl
  rw [prompt.current delay rfl]
  refine ⟨?_, ?_⟩
  · rintro earlier reset since rfl asks unreset
    have settled := (prompts earlier reset since rfl).settled (by rw [asks]; rfl)
    have calls : Backoff.Move.reset :: asked since = made since ++ [.advance] := by
      simpa [asks, Event.made?_of_asks? asks, settled] using due
    have advances := asked_of_unreset unreset
    have row : made since = .reset :: List.replicate (pauses since) .advance := by
      rw [pauses_eq]
      cases known : made since with
      | nil => simp [known] at calls
      | cons call more =>
        rw [known, List.cons_append] at calls
        obtain ⟨rfl, rest⟩ := List.cons.inj calls
        rw [rest] at advances
        rw [List.count_cons_of_ne (by decide)]
        exact congrArg (List.cons _)
          (replicate_of_advances fun call found => advances call (List.mem_append_left _ found))
    simp only [made_append, made_cons, Event.made?_of_asks? asks, Option.toList_none,
      List.nil_append, row, Backoff.after_append]
    exact (follows.after _).toNanos_reset_advances _
  · intro unreset
    have advances := asked_of_unreset unreset
    rw [due] at advances
    rw [replicate_of_advances fun call found => advances call (List.mem_append_left _ found),
      ← pauses_eq]
    exact follows.toNanos_advances _

end Placing

/-- Two connect attempts fail, and so does the receive on the connection of the third one. -/
def threeLosses : Script where
  connects := [⟨false, some 1, .error .closed⟩, ⟨false, some 1, .error .closed⟩,
    ⟨false, some 1, .ok ()⟩]
  connectDefault := ⟨false, some 1, .error .closed⟩
  receives := [⟨false, some 1, .error .closed⟩]
  sends := []
  handles := []

end ChannelAgent.Session
