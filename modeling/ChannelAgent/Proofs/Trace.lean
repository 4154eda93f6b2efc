set_option autoImplicit false

namespace ChannelAgent.Trace

variable {α : Type}

/-- Every element of a list is in its place between all that stood before it and all that follows
it, when `past` comes before the list and `rest` after it. -/
def Placed (fits : List α → α → List α → Prop) (rest : List α) : (past : List α) → List α → Prop
  | _, [] => True
  | past, e :: events =>
    fits past e (events ++ rest) ∧ Placed fits rest (past ++ [e]) events

theorem Placed.at {fits : List α → α → List α → Prop} {rest past events before tail : List α}
    {e : α} (placed : Placed fits rest past events) (split : events = before ++ e :: tail) :
    fits (past ++ before) e (tail ++ rest) := by
  subst split
  induction before generalizing past with
  | nil =>
    rw [List.append_nil]
    exact placed.1
  | cons x before ih =>
    have later := ih placed.2
    rwa [List.append_assoc] at later

theorem Placed.and {fits fits' : List α → α → List α → Prop} {rest past events : List α}
    (placed : Placed fits rest past events) (placed' : Placed fits' rest past events) :
    Placed (fun before e after => fits before e after ∧ fits' before e after) rest past events := by
  induction events generalizing past with
  | nil => trivial
  | cons e events ih => exact ⟨⟨placed.1, placed'.1⟩, ih placed.2 placed'.2⟩

theorem Placed.of_forall {fits : List α → α → List α → Prop} {rest past events : List α}
    (everywhere : ∀ e ∈ events, ∀ before after, fits before e after) :
    Placed fits rest past events := by
  induction events generalizing past with
  | nil => trivial
  | cons e events ih =>
    obtain ⟨here, later⟩ := List.forall_mem_cons.1 everywhere
    exact ⟨here _ _, ih later⟩

theorem Placed.append {fits : List α → α → List α → Prop} {rest past first second : List α}
    (placed : Placed fits (second ++ rest) past first)
    (placed' : Placed fits rest (past ++ first) second) :
    Placed fits rest past (first ++ second) := by
  induction first generalizing past with
  | nil => rwa [List.append_nil] at placed'
  | cons e first ih =>
    refine ⟨?_, ih placed.2 ?_⟩
    · have here := placed.1
      rwa [← List.append_assoc] at here
    · rwa [List.append_assoc]

/-- An element of two lists in a row is an element of one of them. -/
theorem split_append {first second before after : List α} {e : α}
    (split : first ++ second = before ++ e :: after) :
    (∃ tail, first = before ++ e :: tail ∧ after = tail ++ second) ∨
      ∃ skipped, before = first ++ skipped ∧ second = skipped ++ e :: after := by
  rcases List.append_eq_append_iff.1 split with ⟨skipped, rfl, rfl⟩ | ⟨tail, rfl, same⟩
  · exact .inr ⟨skipped, rfl, rfl⟩
  · cases tail with
    | nil => exact .inr ⟨[], by simp, by simpa using same.symm⟩
    | cons x tail =>
      obtain ⟨rfl, rfl⟩ := List.cons.inj same
      exact .inl ⟨tail, rfl, rfl⟩

end ChannelAgent.Trace
