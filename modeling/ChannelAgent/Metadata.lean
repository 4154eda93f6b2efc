import ChannelAgent.Decimal.Shortest
import ChannelAgent.Identity

set_option autoImplicit false

namespace ChannelAgent.Metadata

structure Project where
  projectId : String := ""
  numericProjectId : Json.Value := .null

structure Instance where
  id : Json.Value := .null
  zone : String := ""
  name : String := ""
  image : String := ""
  machineType : String := ""

/-- The document, as far as it is used. -/
structure Document where
  project : Project := {}
  machine : Instance := {}

open Json in
def Project.record : Record Project Project where
  fields := [
    (Field.storing "projectId" .string fun s p => { p with projectId := s }).orLacking,
    (Field.storing "numericProjectId" .any fun v p => { p with numericProjectId := v }).orLacking]
  initial := {}
  finish := some

open Json in
def Instance.record : Record Instance Instance where
  fields := [
    (Field.storing "id" .any fun v i => { i with id := v }).orLacking,
    (Field.storing "zone" .string fun s i => { i with zone := s }).orLacking,
    (Field.storing "name" .string fun s i => { i with name := s }).orLacking,
    (Field.storing "image" .string fun s i => { i with image := s }).orLacking,
    (Field.storing "machineType" .string fun s i => { i with machineType := s }).orLacking]
  initial := {}
  finish := some

open Json in
def Document.record : Record Document Document where
  fields := [
    (Field.storing "project" Project.record.decoder fun p d => { d with project := p }).orLacking,
    (Field.storing "instance" Instance.record.decoder
      fun i d => { d with machine := i }).orLacking]
  initial := {}
  finish := some

def lastSegment (path : String) : String :=
  String.ofList (path.toList.reverse.takeWhile (· ≠ '/')).reverse

/-- The text of an id: a string is taken as it is, a number is written out, and any other value is
empty. -/
def idText : Json.Value → String
  | .string s => s
  | .number (.natural n) => toString n.toNat
  | .number (.negative n) => "-" ++ toString n
  | .number (.real below magnitude) => Decimal.text below magnitude
  | _ => ""

def Document.properties (d : Document) : CloudProperties :=
  let zone := lastSegment d.machine.zone
  { projectId := d.project.projectId
    numericProjectId := idText d.project.numericProjectId
    instanceId := idText d.machine.id
    zone
    instanceName := d.machine.name
    image := d.machine.image
    machineType := lastSegment d.machine.machineType
    region := CloudProperties.regionOfZone zone }

/-- The properties in the body of an answer of the metadata server. -/
def parse (body : List UInt8) : Except Json.Fault CloudProperties :=
  (Document.record.decoder.parseBytes body).map Document.properties

end ChannelAgent.Metadata
