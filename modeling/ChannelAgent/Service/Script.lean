import ChannelAgent.Service.Basic

set_option autoImplicit false

namespace ChannelAgent.Service

/-- How a call of the work ends once its sleep is over. -/
inductive Finish
  | returns
  | panics (message : String)
  /-- It waits for the stop signal and returns. -/
  | awaitsStop
  | hangs
  /-- It gives the stop signal and returns. -/
  | givesStop
  deriving DecidableEq, Repr

structure Call where
  /-- A panic before anything else. -/
  panicsFirst : Option String := none
  /-- How long it sleeps, in milliseconds. -/
  sleeps : Nat := 0
  /-- Whether the stop signal cuts the sleep short; the call then returns. -/
  heedsStop : Bool := true
  finish : Finish := .returns
  deriving DecidableEq, Repr, Inhabited

/-- The end of the `n`th call, once its sleep is over. -/
def Finish.course (f : Finish) (n now : Nat) (signal : Signal) : Course :=
  match f with
  | .returns => ⟨.returned now, [(now, .callEnded n)], signal⟩
  | .panics message => ⟨.panicked now message, [], signal⟩
  | .awaitsStop =>
    match signal.wait now none with
    | .stopped c => ⟨.returned c, [(c, .stopSeen n)], signal⟩
    | _ => ⟨.endless, [], signal⟩
  | .hangs => ⟨.endless, [], signal⟩
  | .givesStop => ⟨.returned now, [(now, .stopGiven n)], signal.giveAt now⟩

def Call.afterStart (c : Call) (n now : Nat) (signal : Signal) : Course :=
  match c.panicsFirst with
  | some message => ⟨.panicked now message, [], signal⟩
  | none =>
    if c.heedsStop then
      match signal.wait now (some (now + c.sleeps)) with
      | .due t => c.finish.course n t signal
      | .stopped t => ⟨.returned t, [(t, .interrupted n)], signal⟩
      | .never => ⟨.endless, [], signal⟩
    else c.finish.course n (now + c.sleeps) signal

def Call.course (c : Call) (n now : Nat) (signal : Signal) : Course :=
  (c.afterStart n now signal).after [(now, .callStarted n)]

theorem Finish.spans (f : Finish) (n now : Nat) (signal : Signal) :
    Spans now (f.course n now signal).events (f.course n now signal).ending.instant? := by
  cases f with
  | returns => exact .event _ (Nat.le_refl now) (Nat.le_refl now)
  | givesStop => exact .event _ (Nat.le_refl now) (Nat.le_refl now)
  | panics message => exact .nil (Nat.le_refl now)
  | hangs => exact .never now _
  | awaitsStop =>
    simp only [Finish.course]
    split
    · rename_i c stops
      exact .event _ (signal.le_of_stopped stops) (Nat.le_refl c)
    · exact .never now _

theorem Call.spans_afterStart (c : Call) (n now : Nat) (signal : Signal) :
    Spans now (c.afterStart n now signal).events (c.afterStart n now signal).ending.instant? := by
  -- what the finish tells comes after the sleep
  have slept {t : Nat} (later : now ≤ t) :
      Spans now (c.finish.course n t signal).events (c.finish.course n t signal).ending.instant? :=
    (Spans.nil later).trans (c.finish.spans n t signal)
  unfold Call.afterStart
  split
  · exact .nil (Nat.le_refl now)
  · split
    · split
      · rename_i due
        exact slept (signal.le_of_due (Nat.le_add_right now _) due)
      · rename_i t stops
        exact .event _ (signal.le_of_stopped stops) (Nat.le_refl t)
      · exact .never now _
    · exact slept (Nat.le_add_right now _)

theorem Call.spans (c : Call) (n now : Nat) (signal : Signal) :
    Spans now (c.course n now signal).events (c.course n now signal).ending.instant? := by
  have started : Spans now [(now, Event.callStarted n)] (some now) :=
    .event _ (Nat.le_refl now) (Nat.le_refl now)
  exact started.trans (c.spans_afterStart n now signal)

theorem Finish.becomes_course (f : Finish) (n now : Nat) (signal : Signal) :
    signal.Becomes now (f.course n now signal).signal := by
  cases f with
  | givesStop => exact signal.becomes_giveAt now
  | awaitsStop =>
    simp only [Finish.course]
    split <;> exact .refl signal now
  | _ => exact .refl signal now

theorem Call.becomes_course (c : Call) (n now : Nat) (signal : Signal) :
    signal.Becomes now (c.course n now signal).signal := by
  change signal.Becomes now (c.afterStart n now signal).signal
  -- what the finish does to the signal, it does no sooner than the call began
  have finish {t : Nat} (later : now ≤ t) :
      signal.Becomes now (c.finish.course n t signal).signal :=
    (Signal.Becomes.refl signal now).trans later (c.finish.becomes_course n t signal)
  unfold Call.afterStart
  split
  · exact .refl signal now
  · split
    · split
      · rename_i due
        exact finish (signal.le_of_due (Nat.le_add_right now c.sleeps) due)
      · exact .refl signal now
      · exact .refl signal now
    · exact finish (Nat.le_add_right now c.sleeps)

/-- The work whose `n`th call does what `calls n` says. -/
def scripted (calls : Nat → Call) : Work where
  call n := (calls n).course n
  spans n now signal := (calls n).spans n now signal
  giving n now signal := (calls n).becomes_course n now signal

end ChannelAgent.Service
