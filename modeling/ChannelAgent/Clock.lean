set_option autoImplicit false

namespace ChannelAgent

/-- A stop signal: the instant at which it fires, if it ever does. -/
structure Signal where
  firesAt : Option Nat
  deriving DecidableEq, Repr, Inhabited

namespace Signal

/-- A signal that does not fire by itself. -/
def silent : Signal := ⟨none⟩

def fired (s : Signal) (now : Nat) : Bool :=
  match s.firesAt with
  | some c => c ≤ now
  | none => false

/-- The signal when it is given at an instant, unless it fires earlier anyway. -/
def giveAt (s : Signal) (now : Nat) : Signal :=
  match s.firesAt with
  | some c => ⟨some (min c now)⟩
  | none => ⟨some now⟩

/-- The signal when it is given at an instant, if `given`. -/
def giveIf (s : Signal) (given : Bool) (now : Nat) : Signal :=
  if given then s.giveAt now else s

/-- What may become of a signal from an instant on: it is left alone, or it is given. -/
def Becomes (s : Signal) (since : Nat) (later : Signal) : Prop :=
  later = s ∨ ∃ t, since ≤ t ∧ later = s.giveAt t

/-- How many steps of a run without a stop signal are followed at most. -/
abbrev horizon : Nat := 1000000

/-- A bound on the steps from an instant until the signal fires, when each takes a millisecond or
more. -/
def patience (s : Signal) (now : Nat) : Nat :=
  match s.firesAt with
  | some c => c - now + 2
  | none => horizon

end Signal

/-- How a wait ends. -/
inductive Wake
  /-- It runs its course and ends at the instant. -/
  | due (at_ : Nat)
  /-- The signal cuts it short at the instant. -/
  | stopped (at_ : Nat)
  /-- It never ends. -/
  | never
  deriving DecidableEq, Repr

/-- The end of a wait that starts at `now` and would run until `due`, or for ever. A wait that is
due at once is not cut short. -/
def Signal.wait (s : Signal) (now : Nat) (due : Option Nat) : Wake :=
  match due, s.firesAt with
  | some d, some c => if d ≤ now ∨ d < c then .due d else .stopped (max c now)
  | some d, none => .due d
  | none, some c => .stopped (max c now)
  | none, none => .never

namespace Signal

theorem Becomes.refl (s : Signal) (since : Nat) : s.Becomes since s := .inl rfl

theorem becomes_giveAt (s : Signal) (now : Nat) : s.Becomes now (s.giveAt now) :=
  .inr ⟨now, Nat.le_refl now, rfl⟩

theorem becomes_giveIf (s : Signal) (given : Bool) (now : Nat) :
    s.Becomes now (s.giveIf given now) := by
  cases given with
  | false => exact .refl s now
  | true => exact becomes_giveAt s now

theorem giveAt_giveAt (s : Signal) (first second : Nat) :
    (s.giveAt first).giveAt second = s.giveAt (min first second) := by
  unfold giveAt
  cases s.firesAt <;> simp [Nat.min_assoc]

theorem Becomes.trans {s between later : Signal} {since after : Nat} (onward : since ≤ after)
    (first : s.Becomes since between) (second : between.Becomes after later) :
    s.Becomes since later := by
  rcases second with rfl | ⟨u, after_le, rfl⟩
  · exact first
  rcases first with rfl | ⟨t, since_le, rfl⟩
  · exact .inr ⟨u, Nat.le_trans onward after_le, rfl⟩
  · exact .inr ⟨min t u, Nat.le_min.2 ⟨since_le, Nat.le_trans onward after_le⟩, giveAt_giveAt ..⟩

/-- A signal that fires some time fires no later, whatever becomes of it. -/
theorem Becomes.fires_no_later {s later : Signal} {since c : Nat} (becomes : s.Becomes since later)
    (fires : s.firesAt = some c) : ∃ c', c' ≤ c ∧ later.firesAt = some c' := by
  rcases becomes with rfl | ⟨t, -, rfl⟩
  · exact ⟨c, Nat.le_refl c, fires⟩
  · exact ⟨min c t, Nat.min_le_left c t, by simp [giveAt, fires]⟩

/-- A wait is not cut short before it begins. -/
theorem le_of_stopped {s : Signal} {now t : Nat} {due : Option Nat}
    (h : s.wait now due = .stopped t) : now ≤ t := by
  unfold wait at h
  split at h
  · split at h
    · simp at h
    · simp only [Wake.stopped.injEq] at h; omega
  · simp at h
  · simp only [Wake.stopped.injEq] at h; omega
  · simp at h

/-- A wait that runs its course ends when it is due. -/
theorem eq_of_due {s : Signal} {now t : Nat} {due : Option Nat} (h : s.wait now due = .due t) :
    due = some t := by
  unfold wait at h
  split at h <;> simp_all
  split at h <;> simp_all

theorem le_of_due {s : Signal} {now t d : Nat} (hd : now ≤ d)
    (h : s.wait now (some d) = .due t) : now ≤ t := by
  obtain rfl : d = t := by simpa using eq_of_due h
  exact hd

end Signal

/-- A history that begins at an instant: its end, if it has one, is no sooner, and nothing that
happens is later than its end. -/
structure Spans {α : Type} (now : Nat) (events : List (Nat × α)) (ended : Option Nat) : Prop where
  onward : ∀ t, ended = some t → now ≤ t
  bound : ∀ t, ended = some t → ∀ e ∈ events, e.1 ≤ t

namespace Spans

variable {α β : Type} {events first second : List (Nat × α)} {ended : Option Nat} {now t u : Nat}

theorem never (now : Nat) (events : List (Nat × α)) : Spans now events none := ⟨nofun, nofun⟩

theorem nil (later : now ≤ u) : Spans now ([] : List (Nat × α)) (some u) where
  onward := fun _ same => Option.some.inj same ▸ later
  bound := nofun

theorem event (e : α) (after : now ≤ t) (before : t ≤ u) : Spans now [(t, e)] (some u) where
  onward := fun _ same => Option.some.inj same ▸ Nat.le_trans after before
  bound := by
    intro _ same e' found
    obtain rfl := List.mem_singleton.1 found
    exact Option.some.inj same ▸ before

/-- A history that begins at the end of another one. -/
theorem trans (front : Spans now first (some u)) (back : Spans u second ended) :
    Spans now (first ++ second) ended where
  onward := fun t ends => Nat.le_trans (front.onward u rfl) (back.onward t ends)
  bound := by
    intro t ends e found
    rcases List.mem_append.1 found with found | found
    · exact Nat.le_trans (front.bound u rfl e found) (back.onward t ends)
    · exact back.bound t ends e found

/-- Other events at the same instants. -/
theorem flatMap (history : Spans now events ended) (f : α → List β) :
    Spans now (events.flatMap fun e => (f e.2).map fun b => (e.1, b)) ended where
  onward := history.onward
  bound := by
    intro t ends e shown
    obtain ⟨told, found, shown⟩ := List.mem_flatMap.1 shown
    obtain ⟨_, -, rfl⟩ := List.mem_map.1 shown
    exact history.bound t ends told found

theorem map (history : Spans now events ended) (f : α → β) :
    Spans now (events.map fun e => (e.1, f e.2)) ended where
  onward := history.onward
  bound := by
    intro t ends e shown
    obtain ⟨told, found, rfl⟩ := List.mem_map.1 shown
    exact history.bound t ends told found

/-- Events of one instant. -/
theorem instant (later : now ≤ t) (events : List α) :
    Spans now (events.map fun e => (t, e)) (some t) where
  onward := fun _ same => Option.some.inj same ▸ later
  bound := by
    intro _ same e shown
    obtain ⟨_, -, rfl⟩ := List.mem_map.1 shown
    exact Nat.le_of_eq (Option.some.inj same)

end Spans

end ChannelAgent
