import ChannelAgent.Json.Printer
import ChannelAgent.Json.Record

set_option autoImplicit false

namespace ChannelAgent

structure Integration where
  integrationName : String := ""
  agentName : String := ""
  agentBinaryName : String := ""
  agentLongName : String := ""
  agentVersion : String := ""
  deriving DecidableEq, Repr, Inhabited

structure CloudProperties where
  projectId : String := ""
  /-- The number of the project. -/
  numericProjectId : String := ""
  instanceId : String := ""
  zone : String := ""
  instanceName : String := ""
  image : String := ""
  machineType : String := ""
  region : String := ""
  deriving DecidableEq, Repr, Inhabited

namespace CloudProperties

/-- The region of a zone: what stands before its last hyphen, or nothing. -/
def regionOfZone (zone : String) : String :=
  match zone.toList.reverse.dropWhile (· ≠ '-') with
  | [] => ""
  | _ :: before => String.ofList before.reverse

open Json in
def record : Record CloudProperties CloudProperties where
  fields := [
    (Field.storing "projectId" .string fun s p => { p with projectId := s }).orLacking,
    (Field.storing "numericProjectId" .string fun s p => { p with numericProjectId := s }).orLacking,
    (Field.storing "instanceId" .string fun s p => { p with instanceId := s }).orLacking,
    (Field.storing "zone" .string fun s p => { p with zone := s }).orLacking,
    (Field.storing "instanceName" .string fun s p => { p with instanceName := s }).orLacking,
    (Field.storing "image" .string fun s p => { p with image := s }).orLacking,
    (Field.storing "machineType" .string fun s p => { p with machineType := s }).orLacking,
    (Field.storing "region" .string fun s p => { p with region := s }).orLacking]
  initial := {}
  finish := some

def decoder : Json.Decoder CloudProperties := record.decoder

open Json in
def write (p : CloudProperties) : List Char :=
  writeObject [("projectId", quoteString p.projectId),
    ("numericProjectId", quoteString p.numericProjectId),
    ("instanceId", quoteString p.instanceId), ("zone", quoteString p.zone),
    ("instanceName", quoteString p.instanceName), ("image", quoteString p.image),
    ("machineType", quoteString p.machineType), ("region", quoteString p.region)]

end CloudProperties

namespace Integration

/-- The members read so far. -/
structure Parts where
  integrationName : Option String := none
  agentName : Option String := none
  agentBinaryName : Option String := none
  agentLongName : Option String := none
  agentVersion : Option String := none

open Json in
def record : Record Parts Integration where
  fields := [
    .storing "integrationName" .string fun s p => { p with integrationName := some s },
    .storing "agentName" .string fun s p => { p with agentName := some s },
    .storing "agentBinaryName" .string fun s p => { p with agentBinaryName := some s },
    .storing "agentLongName" .string fun s p => { p with agentLongName := some s },
    .storing "agentVersion" .string fun s p => { p with agentVersion := some s }]
  initial := {}
  finish p := do
    some ⟨← p.integrationName, ← p.agentName, ← p.agentBinaryName, ← p.agentLongName,
      ← p.agentVersion⟩

def decoder : Json.Decoder Integration := record.decoder

open Json in
def write (i : Integration) : List Char :=
  writeObject [("integrationName", quoteString i.integrationName),
    ("agentName", quoteString i.agentName), ("agentBinaryName", quoteString i.agentBinaryName),
    ("agentLongName", quoteString i.agentLongName), ("agentVersion", quoteString i.agentVersion)]

end Integration

end ChannelAgent
