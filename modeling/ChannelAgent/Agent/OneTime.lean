import ChannelAgent.Usage.Desk

set_option autoImplicit false

namespace ChannelAgent.Agent

open Usage (Desk Ledger)

/-- The line that names the agent and its version. -/
def versionLine (i : Integration) : String :=
  i.agentLongName ++ " version " ++ i.agentVersion ++ "\n"

/-- The codes of the actions that an echo reports. -/
def echoStarted : Int := 51

def echoFinished : Int := 52

/-- Prints a text. Both ends are reported; without a text only the start is. -/
def echo (text : String) (i : Integration) (cloud : CloudProperties) (d : Desk) :
    String × Ledger × Desk :=
  let d := { d with logger := d.logger.setProperties i true cloud }
  let (started, d) := d.logCode .action echoStarted
  if text.isEmpty then ("", started, d)
  else
    let noted := Ledger.ofEntries d.now [Log.info "echo" [("text", text)]]
    let (finished, d) := d.logCode .action echoFinished
    (text ++ "\n", started ++ noted ++ finished, d)

/-- The report of a status on behalf of an agent or tool. -/
structure StatusReport where
  /-- The name to report under, if not that of the running agent. -/
  name : Option String := none
  /-- The version to report, if not that of the running agent. -/
  version : Option String := none
  status : String := ""
  actionCode : Int := 0
  errorCode : Int := 0
  /-- The image of the instance, if not the one that the metadata name. -/
  image : Option String := none
  deriving DecidableEq, Repr

inductive StatusReport.Lack
  | status
  | version
  | errorCode
  | actionCode
  deriving DecidableEq, Repr

namespace StatusReport

def Lack.text : Lack → String
  | .status => "a usage status value is required"
  | .version => "for status UPDATED, Agent Version is required"
  | .errorCode => "for status ERROR, an error code is required"
  | .actionCode => "for status ACTION, an action code is required"

/-- What a report with the version lacks, if anything. -/
def lack? (r : StatusReport) (version : String) : Option Lack :=
  if r.status = "" then some .status
  else if r.status = "UPDATED" ∧ version = "" then some .version
  else if r.status = "ERROR" ∧ r.errorCode ≤ 0 then some .errorCode
  else if r.status = "ACTION" ∧ r.actionCode ≤ 0 then some .actionCode
  else none

def value (r : StatusReport) (version : String) : Usage.Status → String
  | .error => toString r.errorCode
  | .action => toString r.actionCode
  | .updated => version
  | _ => ""

def properties (r : StatusReport) (cloud : CloudProperties) : CloudProperties :=
  match r.image with
  | some image => if image.isEmpty then cloud else { cloud with image := image }
  | none => cloud

/-- Makes the report, for a running agent with a name and a version. A status that cannot be
reported is only noted in the log. -/
def run (r : StatusReport) (name version : String) (cloud : CloudProperties) (d : Desk) :
    Except Lack Unit × Ledger × Desk :=
  let name := r.name.getD name
  let version := r.version.getD version
  match r.lack? version with
  | some lack =>
    (.error lack,
      .ofEntries d.now [Log.error "Invalid logusage arguments" [("error", lack.text)]], d)
  | none =>
    let agent : Usage.AgentProperties :=
      { name, version, enabled := true, leading := Usage.Logger.standardLeading }
    let d := { d with logger := (d.logger.setAgent agent).setCloud (r.properties cloud) }
    let unreported (f : Usage.Fault) : Ledger :=
      .ofEntries d.now [Log.warn "Could not log usage" [("error", f.text)]]
    match Usage.Status.parse r.status with
    | .error f => (.ok (), unreported f, d)
    | .ok status =>
      match d.log status (r.value version status) with
      | (.ok (), ledger, d) => (.ok (), ledger, d)
      | (.error f, ledger, d) => (.ok (), ledger ++ unreported f, d)

end StatusReport

end ChannelAgent.Agent
