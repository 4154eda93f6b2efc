set_option autoImplicit false

namespace ChannelAgent.Usage

inductive Status
  | running
  | started
  | stopped
  | configured
  | misconfigured
  | error
  | installed
  | updated
  | uninstalled
  | action
  deriving DecidableEq, Repr

namespace Status

def all : List Status :=
  [running, started, stopped, configured, misconfigured, error, installed, updated, uninstalled,
    action]

def name : Status → String
  | running => "RUNNING"
  | started => "STARTED"
  | stopped => "STOPPED"
  | configured => "CONFIGURED"
  | misconfigured => "MISCONFIGURED"
  | error => "ERROR"
  | installed => "INSTALLED"
  | updated => "UPDATED"
  | uninstalled => "UNINSTALLED"
  | action => "ACTION"

def ofName? (name : String) : Option Status := all.find? fun s => s.name = name

theorem mem_all (s : Status) : s ∈ all := by
  cases s <;> decide

theorem ofName?_name (s : Status) : ofName? s.name = some s := by
  cases s <;> rfl

theorem ofName?_eq_some {name : String} {s : Status} : ofName? name = some s ↔ s.name = name := by
  constructor
  · intro found
    exact of_decide_eq_true (List.find?_some (p := fun s : Status => decide (s.name = name)) found)
  · intro named
    rw [← named]
    exact s.ofName?_name

theorem ofName?_eq_none {name : String} : ofName? name = none ↔ name ∉ all.map Status.name := by
  constructor
  · intro unknown listed
    obtain ⟨s, -, named⟩ := List.mem_map.1 listed
    rw [ofName?_eq_some.2 named] at unknown
    cases unknown
  · intro unlisted
    cases found : ofName? name with
    | none => rfl
    | some s => exact absurd (List.mem_map.2 ⟨s, s.mem_all, ofName?_eq_some.1 found⟩) unlisted

/-- No two statuses share a name. -/
theorem name_inj {s t : Status} : s.name = t.name ↔ s = t := by
  constructor
  · intro same
    have found := s.ofName?_name
    rw [same, t.ofName?_name] at found
    exact (Option.some.inj found).symm
  · rintro rfl
    rfl

end Status

inductive Fault
  | unknownStatus (name : String)
  /-- The zone of the instance is not known. -/
  | missingZone
  /-- The region of the job is not known. -/
  | missingRegion
  /-- The report could not be delivered. -/
  | request (text : String)
  deriving DecidableEq, Repr

def Fault.text : Fault → String
  | .unknownStatus name => "Unknown usage status: " ++ name
  | .missingZone => "Zone is not set for GCE"
  | .missingRegion => "Region is not set for Cloud Run"
  | .request text => "Usage request failed: " ++ text

/-- The status with a name, or the fault that there is none. -/
def Status.parse (name : String) : Except Fault Status :=
  match ofName? name with
  | some s => .ok s
  | none => .error (.unknownStatus name)

end ChannelAgent.Usage
