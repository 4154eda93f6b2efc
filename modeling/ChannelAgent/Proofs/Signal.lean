import ChannelAgent.Clock

set_option autoImplicit false

namespace ChannelAgent

namespace Signal

theorem fired_iff (s : Signal) (now : Nat) :
    s.fired now = true ↔ ∃ c, s.firesAt = some c ∧ c ≤ now := by
  unfold fired
  cases s.firesAt <;> simp

theorem not_fired_iff (s : Signal) (now : Nat) :
    s.fired now = false ↔ ∀ c, s.firesAt = some c → now < c := by
  unfold fired
  cases s.firesAt <;> simp

theorem fired_mono {s : Signal} {now later : Nat} (h : s.fired now = true) (le : now ≤ later) :
    s.fired later = true := by
  obtain ⟨c, fires, before⟩ := (s.fired_iff now).1 h
  exact (s.fired_iff later).2 ⟨c, fires, Nat.le_trans before le⟩

/-- Giving a signal that has fired changes nothing. -/
theorem giveIf_of_fired {s : Signal} {now : Nat} (h : s.fired now = true) (given : Bool) :
    s.giveIf given now = s := by
  obtain ⟨c, fires, before⟩ := (s.fired_iff now).1 h
  cases s with
  | mk firesAt =>
    simp only at fires
    subst fires
    cases given <;> simp [giveIf, giveAt, Nat.min_eq_left before]

theorem of_giveIf {s : Signal} {now c : Nat} {given : Bool}
    (fires : (s.giveIf given now).firesAt = some c) : s.firesAt = some c ∨ c = now := by
  cases given with
  | false => exact .inl fires
  | true =>
    unfold giveIf giveAt at fires
    cases known : s.firesAt with
    | none =>
      simp only [known, ↓reduceIte, Option.some.injEq] at fires
      exact .inr fires.symm
    | some d =>
      simp only [known, ↓reduceIte, Option.some.injEq] at fires
      rw [Option.some.injEq]
      omega

/-- Giving a signal makes it fire no later. -/
theorem giveIf_le {s : Signal} {c : Nat} (fires : s.firesAt = some c) (given : Bool) (now : Nat) :
    ∃ c', c' ≤ c ∧ (s.giveIf given now).firesAt = some c' := by
  cases given with
  | false => exact ⟨c, Nat.le_refl c, fires⟩
  | true => exact ⟨min c now, Nat.min_le_left c now, by simp [giveIf, giveAt, fires]⟩

/-- A wait that runs its course ends before the signal fires, unless it is due at once. -/
theorem before_of_due {s : Signal} {now t c : Nat} {due : Option Nat}
    (h : s.wait now due = .due t) (fires : s.firesAt = some c) : t ≤ now ∨ t < c := by
  obtain rfl := eq_of_due h
  unfold wait at h
  simp only [fires] at h
  split at h
  · assumption
  · cases h

/-- A wait is cut short when the signal fires, or at once if it has fired, and before it is due. -/
theorem of_stopped {s : Signal} {now t : Nat} {due : Option Nat}
    (h : s.wait now due = .stopped t) :
    ∃ c, s.firesAt = some c ∧ t = max c now ∧ ∀ d, due = some d → now < d ∧ c ≤ d := by
  unfold wait at h
  split at h
  · rename_i d c fires
    split at h
    · cases h
    · rename_i late
      refine ⟨c, fires, (Wake.stopped.inj h).symm, ?_⟩
      intro d' same
      obtain rfl := Option.some.inj same
      omega
  · cases h
  · rename_i c fires
    refine ⟨c, fires, (Wake.stopped.inj h).symm, ?_⟩
    intro d same
    cases same
  · cases h

/-- A wait runs its course when the signal has not fired by then. -/
theorem wait_of_not_fired {s : Signal} {due : Nat} (quiet : s.fired due = false) (now : Nat) :
    s.wait now (some due) = .due due := by
  unfold wait
  cases fires : s.firesAt with
  | none => rfl
  | some c =>
    have before := (s.not_fired_iff due).1 quiet c fires
    exact if_pos (.inr before)

/-- A wait is cut short when the signal fires before it is due. -/
theorem wait_of_fires {s : Signal} {now due c : Nat} (later : now < due)
    (fires : s.firesAt = some c) (before : c ≤ due) : s.wait now (some due) = .stopped (max c now) := by
  simp only [wait, fires]
  rw [if_neg (by omega)]

/-- A wait never ends only when nothing is due and no signal comes. -/
theorem of_never {s : Signal} {now : Nat} {due : Option Nat} (h : s.wait now due = .never) :
    due = none ∧ s.firesAt = none := by
  unfold wait at h
  split at h
  · split at h <;> cases h
  · cases h
  · cases h
  · exact ⟨rfl, ‹_›⟩

end Signal

end ChannelAgent
