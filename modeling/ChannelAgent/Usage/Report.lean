import ChannelAgent.Identity
import ChannelAgent.Text.Quoted
import ChannelAgent.Usage.Status

set_option autoImplicit false

namespace ChannelAgent.Usage

structure AgentProperties where
  name : String := ""
  version : String := ""
  /-- Whether the agent reports at all. -/
  enabled : Bool := false
  leading : String := ""
  /-- A further part before the status, unless it is empty. -/
  optional : String := ""
  deriving DecidableEq, Repr, Inhabited

inductive Platform
  | gce
  | cloudRun (job : String)
  deriving DecidableEq, Repr, Inhabited

def Platform.text : Platform → String
  | .gce => "Gce"
  | .cloudRun job => "CloudRun \x7b job_name: " ++ Quoted.quote job ++ " \x7d"

structure Request where
  url : String
  userAgent : String
  /-- The project that the report is charged to. -/
  project : Option String
  deriving DecidableEq, Repr

/-- How the backend takes reports: the fault that delivering a report ends in, if it fails. -/
abbrev Delivery := Request → Option Fault

def Delivery.sure : Delivery := fun _ => none

def userAgentParts (agent : AgentProperties) (status : String) : List String :=
  [agent.leading, agent.name, agent.version] ++
    (if agent.optional.isEmpty then [] else [agent.optional]) ++ [status]

/-- A text without its spaces and line feeds. -/
def withoutBlanks (text : String) : String :=
  String.ofList (text.toList.filter fun c => c ≠ ' ' && c ≠ '\n')

theorem withoutBlanks_append (a b : String) :
    withoutBlanks (a ++ b) = withoutBlanks a ++ withoutBlanks b := by
  simp [withoutBlanks, String.toList_append, List.filter_append]

/-- The user agent of a report: its parts with slashes between them, without spaces and line
feeds. -/
def userAgent (agent : AgentProperties) (status : String) : String :=
  withoutBlanks (String.intercalate "/" (userAgentParts agent status))

def computeUrl : String := "https://compute.googleapis.com/compute/v1"

def instanceUrl (cloud : CloudProperties) : String :=
  computeUrl ++ "/projects/" ++ cloud.projectId ++ "/zones/" ++ cloud.zone ++ "/instances/" ++
    cloud.instanceName

def jobUrl (cloud : CloudProperties) (job : String) : String :=
  "https://run.googleapis.com/v1/projects/" ++ cloud.projectId ++ "/locations/" ++ cloud.region ++
    "/jobs/" ++ job

end ChannelAgent.Usage
