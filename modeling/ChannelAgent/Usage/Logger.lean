import ChannelAgent.Clock
import ChannelAgent.Log.Entry
import ChannelAgent.Usage.Report
import ChannelAgent.Usage.Status

set_option autoImplicit false

namespace ChannelAgent.Usage

structure Logger where
  agent : Option AgentProperties := none
  cloud : Option CloudProperties := none
  platform : Platform := .gce
  /-- The numbers of the projects for which nothing is reported. -/
  exclusions : List String := []
  /-- The latest calls, the latest first. -/
  calls : List (Status × Nat) := []
  deriving Repr

structure Outcome where
  result : Except Fault Unit
  /-- The report, if one was made. -/
  report : Option Request
  entries : List Log.Entry

namespace Logger

/-- A logger for which some projects are excluded. -/
def new (exclusions : List String) : Logger := { exclusions }

def setAgent (l : Logger) (agent : AgentProperties) : Logger := { l with agent := some agent }

def setCloud (l : Logger) (cloud : CloudProperties) : Logger := { l with cloud := some cloud }

def setPlatform (l : Logger) (platform : Platform) : Logger := { l with platform := platform }

/-- The leading part of the user agent of an agent with an identity. -/
def standardLeading : String := "gwap"

/-- Sets the properties for an agent on an instance. -/
def setProperties (l : Logger) (integration : Integration) (enabled : Bool)
    (cloud : CloudProperties) : Logger :=
  (l.setAgent
    { name := integration.agentName, version := integration.agentVersion, enabled
      leading := standardLeading }).setCloud cloud

def reporting? (l : Logger) : Option AgentProperties := l.agent.filter (·.enabled)

def statusText (status : Status) (value : String) : String :=
  if value.isEmpty then status.name else status.name ++ "/" ++ value

/-- The address that reports go to, or why there is none. -/
def url (cloud : CloudProperties) : Platform → Except Fault String
  | .gce => if cloud.zone.isEmpty then .error .missingZone else .ok (instanceUrl cloud)
  | .cloudRun job => if cloud.region.isEmpty then .error .missingRegion else .ok (jobUrl cloud job)

/-- The report of a status text by an agent; none for an excluded project. -/
def request (l : Logger) (agent : AgentProperties) (text : String) :
    Except Fault (Option Request) :=
  let cloud := l.cloud.getD {}
  match url cloud l.platform with
  | .error e => .error e
  | .ok url =>
    if cloud.numericProjectId ∈ l.exclusions then .ok none
    else
      .ok (some
        { url, userAgent := userAgent agent text
          project := if cloud.projectId.isEmpty then none else some cloud.projectId })

/-- The entries for a report that could not be made. -/
def refusalEntries : Fault → List Log.Entry
  | .missingZone =>
    [Log.warn "Unable to send GCE agent status without zone in cloud properties"]
  | .missingRegion =>
    [Log.warn "Unable to send Cloud Run agent status without region in cloud properties"]
  | _ => []

def outcome (l : Logger) (delivery : Delivery) (status : Status) (value : String) : Outcome :=
  match l.reporting? with
  | none => ⟨.ok (), none, []⟩
  | some agent =>
    let text := statusText status value
    let noted := Log.debug "logging status" [("status", text)]
    match l.request agent text with
    | .error e => ⟨.error e, none, noted :: refusalEntries e⟩
    | .ok none => ⟨.ok (), none, [noted]⟩
    | .ok (some request) =>
      match delivery request with
      | none => ⟨.ok (), some request, [noted]⟩
      | some e =>
        ⟨.error e, some request,
          [noted, Log.warn "failed to send agent status"
            [("error", e.text), ("platform", l.platform.text)]]⟩

def noteCall (l : Logger) (status : Status) (now : Nat) : Logger :=
  if l.reporting?.isSome then { l with calls := (status, now) :: l.calls } else l

def lastCalled? (l : Logger) (status : Status) : Option Nat :=
  (l.calls.find? fun c => c.1 = status).map (·.2)

/-- The same outcome for a caller who does not want to know about failures. -/
def quiet (status : Status) (o : Outcome) : Outcome :=
  match o.result with
  | .ok () => o
  | .error e =>
    { o with
      result := .ok ()
      entries := o.entries ++
        [Log.debug "Could not log usage" [("status", status.name), ("error", e.text)]] }

/-- No code is written with no letters at all. -/
theorem statusText_code (status : Status) (code : Int) :
    statusText status (toString code) = status.name ++ "/" ++ toString code := by
  have written : (toString code).isEmpty = false := by
    rw [String.isEmpty_eq_false_iff]
    cases code with
    | ofNat n =>
      have text : toString (Int.ofNat n) = String.ofList (Nat.toDigits 10 n) := rfl
      rw [text]
      simp [Nat.toDigits_ne_nil]
    | negSucc n =>
      have text : toString (Int.negSucc n) = "-" ++ toString (n + 1) := rfl
      simp [text]
  rw [statusText, written]
  rfl

/-- A report is made if one is asked for, whatever becomes of it. -/
theorem report_outcome {l : Logger} {agent : AgentProperties} (reporting : l.reporting? = some agent)
    (delivery : Delivery) (status : Status) (value : String) :
    (l.outcome delivery status value).report =
      (l.request agent (statusText status value)).toOption.join := by
  rw [outcome, reporting]
  simp only
  split
  · rename_i refused
    rw [refused]
    rfl
  · rename_i excluded
    rw [excluded]
    rfl
  · rename_i request asked
    rw [asked]
    split <;> rfl

@[simp] theorem report_quiet (status : Status) (o : Outcome) :
    (quiet status o).report = o.report := by
  unfold quiet
  split <;> rfl

end Logger

end ChannelAgent.Usage
