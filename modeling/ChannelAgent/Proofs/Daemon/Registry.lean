import Mathlib.Data.List.Induction
import ChannelAgent.Proofs.Daemon.Shutdown

set_option autoImplicit false

namespace ChannelAgent

namespace Registry

/-- The registry after a call; a rejected one is ignored. -/
def offered (r : Registry) (s : Service) : Registry :=
  match r.register s with
  | .ok next => next
  | .error _ => r

/-- The registry of a new daemon after some calls. -/
def ofCalls (calls : List Service) : Registry := calls.foldl offered empty

/-- The calls that use their names first. -/
def firsts (calls : List Service) : List Service :=
  (List.range calls.length).filterMap fun i =>
    calls[i]?.filter fun s => s.name ∉ (calls.take i).map (·.name)

section

variable {r : Registry} {s : Service} {calls : List Service}

theorem register_of_mem (taken : s.name ∈ r.names) :
    r.register s = .error (.duplicateService s.name) ∧ r.offered s = r := by
  have rejected : r.register s = .error (.duplicateService s.name) := dif_pos taken
  refine ⟨rejected, ?_⟩
  rw [offered, rejected]

theorem register_of_not_mem (free : s.name ∉ r.names) :
    r.register s = .ok (r.offered s) ∧ (r.offered s).services = r.services ++ [s] := by
  obtain ⟨next, accepted, services⟩ :
      ∃ next, r.register s = .ok next ∧ next.services = r.services ++ [s] :=
    ⟨_, dif_neg free, rfl⟩
  have after : r.offered s = next := by rw [offered, accepted]
  rw [after]
  exact ⟨accepted, services⟩

theorem register_eq_error {fault : DaemonFault} : r.register s = .error fault ↔
    s.name ∈ r.names ∧ fault = .duplicateService s.name := by
  by_cases taken : s.name ∈ r.names
  · rw [(register_of_mem taken).1]
    simp [taken, eq_comm]
  · rw [(register_of_not_mem taken).1]
    simp [taken]

theorem ofCalls_concat (calls : List Service) (s : Service) :
    ofCalls (calls ++ [s]) = (ofCalls calls).offered s := by
  rw [ofCalls, List.foldl_append]
  rfl

theorem ofCalls_succ {i : Nat} (found : calls[i]? = some s) :
    ofCalls (calls.take (i + 1)) = (ofCalls (calls.take i)).offered s := by
  rw [List.take_add_one, found]
  exact ofCalls_concat _ s

theorem mem_names_take {name : String} {i : Nat} :
    name ∈ (calls.take i).map (·.name) ↔ ∃ j < i, calls[j]?.map (·.name) = some name := by
  simp only [List.mem_iff_getElem?, List.getElem?_map, List.getElem?_take]
  refine exists_congr fun j => ?_
  by_cases earlier : j < i <;> simp [earlier]

/-- Another call opens a name of its own or adds nothing. -/
theorem firsts_concat (calls : List Service) (s : Service) :
    firsts (calls ++ [s]) =
      firsts calls ++ if s.name ∈ calls.map (·.name) then [] else [s] := by
  unfold firsts
  rw [List.length_append, List.length_singleton, List.range_succ, List.filterMap_append]
  congr 1
  · refine List.filterMap_congr fun i found => ?_
    have before : i < calls.length := List.mem_range.1 found
    rw [List.getElem?_append_left before, List.take_append_of_le_length before.le]
  · have last : (calls ++ [s])[calls.length]? = some s := List.getElem?_concat_length ..
    have before : (calls ++ [s]).take calls.length = calls := List.take_left' rfl
    rw [List.filterMap_cons, List.filterMap_nil, last, before, Option.filter_some]
    by_cases taken : s.name ∈ calls.map (·.name)
    · simp only [taken, not_true_eq_false, decide_false, Bool.false_eq_true, ↓reduceIte]
    · simp only [taken, not_false_eq_true, decide_true, ↓reduceIte]

theorem mem_names_firsts {name : String} :
    name ∈ (firsts calls).map (·.name) ↔ name ∈ calls.map (·.name) := by
  induction calls using List.reverseRecOn with
  | nil => rfl
  | append_singleton calls s ih =>
    rw [firsts_concat, List.map_append, List.map_append, List.mem_append, List.mem_append, ih]
    split
    · rename_i taken
      simp only [List.map_nil, List.not_mem_nil, or_false, List.map_singleton, List.mem_singleton]
      exact ⟨.inl, fun either => either.elim id fun same => same ▸ taken⟩
    · rfl

/-- The registry holds the first call of each name. -/
theorem services_ofCalls (calls : List Service) : (ofCalls calls).services = firsts calls := by
  induction calls using List.reverseRecOn with
  | nil => rfl
  | append_singleton calls s ih =>
    have names : s.name ∈ (ofCalls calls).names ↔ s.name ∈ calls.map (·.name) := by
      rw [Registry.names, ih]
      exact mem_names_firsts
    rw [ofCalls_concat, firsts_concat, ← ih]
    by_cases taken : s.name ∈ calls.map (·.name)
    · rw [(register_of_mem (names.2 taken)).2, if_pos taken, List.append_nil]
    · rw [(register_of_not_mem fun taken' => taken (names.1 taken')).2, if_neg taken]

theorem mem_names_ofCalls {name : String} :
    name ∈ (ofCalls calls).names ↔ name ∈ calls.map (·.name) := by
  rw [Registry.names, services_ofCalls]
  exact mem_names_firsts

/-- A name stands for the first call that used it. -/
theorem find?_firsts (name : String) :
    (firsts calls).find? (fun s => s.name = name) = calls.find? fun s => s.name = name := by
  induction calls using List.reverseRecOn with
  | nil => rfl
  | append_singleton calls s ih =>
    rw [firsts_concat, List.find?_append, List.find?_append, ih]
    split
    · rename_i taken
      -- a service whose name is taken is not the one that is found
      by_cases same : s.name = name
      · obtain ⟨t, found, named⟩ := List.mem_map.1 taken
        have present : (calls.find? fun s => s.name = name).isSome := by
          rw [List.find?_isSome]
          exact ⟨t, found, by simpa using named.trans same⟩
        obtain ⟨first, present⟩ := Option.isSome_iff_exists.1 present
        rw [present]
        rfl
      · simp [same]
    · rfl

theorem names_firsts (calls : List Service) :
    (firsts calls).map (·.name) = (calls.map (·.name)).eraseDups := by
  induction calls using List.reverseRecOn with
  | nil => rfl
  | append_singleton calls s ih =>
    rw [firsts_concat, List.map_append, List.map_append, List.eraseDups_append, ih]
    congr 1
    rw [List.map_singleton, List.removeAll, List.filter_singleton, List.elem_eq_mem]
    by_cases taken : s.name ∈ calls.map (·.name)
    · rw [if_pos taken, decide_eq_true taken]
      rfl
    · rw [if_neg taken, decide_eq_false taken]
      rfl

theorem firsts_eq_nil : firsts calls = [] ↔ calls = [] := by
  constructor
  · intro nothing
    refine List.eq_nil_iff_forall_not_mem.2 fun s found => ?_
    have first : s.name ∈ (firsts calls).map (·.name) :=
      mem_names_firsts.2 (List.mem_map_of_mem found)
    rw [nothing] at first
    cases first
  · rintro rfl
    rfl

end

end Registry

namespace Daemon

/-- A run starts some services: each of them once, in their order, and from the first instant. -/
structure Starts (x : Setting) (services : List Service) (run : Run) : Prop where
  once : run.traces.map (·.1) = services
  announced : (services.map fun s =>
    (0, Log.info "Daemon starting service" [("service", s.name)])) <:+: run.ledger.entries
  /-- A trace is that of the supervision of its service, up to the end of the run. -/
  supervised : ∃ (ts : List Task) (stop : Nat), ts.map (·.1) = services ∧
    (∀ t ∈ ts, Arises x.shutdown stop t) ∧
    run.traces = ts.map fun t => (t.1, t.2.events.filter fun e => x.allows run.finished e.1)

theorem entries_infix_joined {l : Usage.Ledger} {ls : List Usage.Ledger} (found : l ∈ ls) :
    l.entries <:+: (Usage.Ledger.joined ls).entries := by
  obtain ⟨front, back, rfl⟩ := List.append_of_mem found
  refine ⟨front.flatMap (·.entries), back.flatMap (·.entries), ?_⟩
  simp [Usage.Ledger.joined]

theorem announced_of_run {x : Setting} {r : Registry} {observed : Nat} {run : Run}
    (ok : Daemon.run x r observed = .ok run) :
    (r.services.map fun s => (0, Log.info "Daemon starting service" [("service", s.name)])) <:+:
      run.ledger.entries := by
  have opening : (Usage.Ledger.ofEntries 0 (openingEntries x r)).entries <:+: run.ledger.entries := by
    unfold Daemon.run at ok
    split at ok
    · cases ok
    · obtain rfl := Except.ok.inj ok
      exact entries_infix_joined (by simp)
  refine List.IsInfix.trans ?_ opening
  rw [Usage.Ledger.ofEntries, openingEntries, Registry.names, List.map_append, List.map_cons,
    List.map_map, List.map_map]
  exact List.infix_append [(0, Log.info "Daemon started")] _ _

theorem starts_of_nonempty (x : Setting) {r : Registry} (observed : Nat)
    (nonempty : r.services ≠ []) :
    ∃ run, Daemon.run x r observed = .ok run ∧ Starts x r.services run := by
  obtain ⟨run, ok, returns⟩ := run_returns x observed nonempty
  obtain ⟨services, -, -, arise⟩ := tasks_arise r.services x.shutdown
  exact ⟨run, ok, returns.services, announced_of_run ok, _, _, services, arise, returns.traces⟩

end Daemon

/-- Without a service, and only then, there is no run; otherwise each service is started once. -/
theorem Daemon.run_iff (x : Daemon.Setting) (r : Registry) (observed : Nat) :
    (∀ fault, Daemon.run x r observed = .error fault ↔ fault = .noServices ∧ r.services = []) ∧
      (r.services ≠ [] → ∃ run, Daemon.run x r observed = .ok run ∧
        Daemon.Starts x r.services run) := by
  refine ⟨fun fault => ?_, Daemon.starts_of_nonempty x observed⟩
  by_cases nothing : r.services = []
  · have empty : Daemon.run x r observed = .error .noServices := by
      rw [Daemon.run, nothing]
      rfl
    rw [empty]
    simp [nothing, eq_comm]
  · obtain ⟨run, ok, -⟩ := Daemon.starts_of_nonempty x observed nothing
    rw [ok]
    simp [nothing]

/-- The call at some place is judged by the calls in front of it. -/
theorem Registry.call_judged {calls : List Service} {i : Nat} {s : Service}
    (found : calls[i]? = some s) :
    let before := Registry.ofCalls (calls.take i)
    (∀ fault, before.register s = .error fault ↔
      fault = .duplicateService s.name ∧ ∃ j < i, calls[j]?.map (·.name) = some s.name) ∧
      (∀ fault, before.register s = .error fault →
        Registry.ofCalls (calls.take (i + 1)) = before) ∧
      ∀ after, before.register s = .ok after → Registry.ofCalls (calls.take (i + 1)) = after := by
  refine ⟨fun fault => ?_, fun fault rejected => ?_, fun after accepted => ?_⟩
  · rw [Registry.register_eq_error, Registry.mem_names_ofCalls, Registry.mem_names_take, and_comm]
  · rw [Registry.ofCalls_succ found, Registry.offered, rejected]
  · rw [Registry.ofCalls_succ found, Registry.offered, accepted]

end ChannelAgent
