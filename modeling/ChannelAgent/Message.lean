import ChannelAgent.Labels
import ChannelAgent.Text.Base64
import ChannelAgent.Json.Printer
import ChannelAgent.Json.Record

set_option autoImplicit false

namespace ChannelAgent

/-- A typed payload. The agent passes it on without looking at it. -/
structure Body where
  typeUrl : String
  value : List UInt8
  deriving DecidableEq, Repr, Inhabited

structure Message where
  labels : Labels
  body : Option Body
  deriving DecidableEq, Inhabited

inductive OperationState
  | succeeded
  | failed
  deriving DecidableEq, Repr

def OperationState.name : OperationState → String
  | .succeeded => "SUCCEEDED"
  | .failed => "FAILED"

namespace Message

/-- The label that ties a request to its status message. -/
def operationIdLabel : String := "operation_id"

def stateLabel : String := "state"

/-- The label for the stage of a long-running operation. -/
def stageLabel : String := "lro_state"

def empty : Message := ⟨.empty, none⟩

/-- The status message for an operation. Its stage is always done. -/
def status (operationId : String) (state : OperationState) (body : Option Body) : Message where
  labels := .ofList [(operationIdLabel, operationId), (stateLabel, state.name), (stageLabel, "done")]
  body := body

def hasLabels (m : Message) : Bool := !m.labels.isEmpty

def operationId? (m : Message) : Option String := m.labels.get? operationIdLabel

def state? (m : Message) : Option String := m.labels.get? stateLabel

theorem entries_status (operationId : String) (state : OperationState) (body : Option Body) :
    (status operationId state body).labels.entries =
      [("lro_state", "done"), ("operation_id", operationId), ("state", state.name)] := by
  have later : ¬ stateLabel < operationIdLabel := by decide
  have apart : stateLabel ≠ operationIdLabel := by decide
  have first : stageLabel < operationIdLabel := by decide
  simp only [status, Labels.ofList, List.foldl_cons, List.foldl_nil, Labels.insert, Labels.empty,
    Labels.place, later, apart, first, if_true, if_false]
  rfl

theorem isEmpty_labels (m : Message) : m.labels.isEmpty = !m.hasLabels := by simp [hasLabels]

theorem hasLabels_of_operationId? {m : Message} {id : String} (h : m.operationId? = some id) :
    m.hasLabels = true := by
  obtain ⟨e, found, -⟩ := Option.map_eq_some_iff.1 h
  have present := List.ne_nil_of_mem (List.mem_of_find?_eq_some found)
  simpa [hasLabels, Labels.isEmpty] using present

theorem operationId?_of_bare {m : Message} (bare : m.hasLabels = false) : m.operationId? = none := by
  cases known : m.operationId? with
  | none => rfl
  | some id => simp [hasLabels_of_operationId? known] at bare

end Message

namespace Body

/-- The members read so far. -/
structure Parts where
  typeUrl : Option String
  value : Option (List UInt8)

open Json in
def record : Record Parts Body where
  fields := [
    .storing "type_url" .string fun s p => { p with typeUrl := some s },
    .storing "value" (Decoder.string.refine fun s => Base64.decode? s.toList)
      fun v p => { p with value := some v }]
  initial := ⟨none, none⟩
  finish p := do some ⟨← p.typeUrl, ← p.value⟩

def decoder : Json.Decoder Body := record.decoder

open Json in
def write (b : Body) : List Char :=
  writeObject [("type_url", quoteString b.typeUrl),
    ("value", '"' :: Base64.encode b.value ++ ['"'])]

end Body

namespace Message

open Json in
def record : Record Message Message where
  fields := [
    (Field.storing "labels" (Decoder.dictionary .string)
      fun entries m => { m with labels := .ofList entries }).orLacking,
    (Field.storing "body" (Decoder.optional Body.decoder)
      fun body m => { m with body := body }).orLacking]
  initial := empty
  finish := some

def decoder : Json.Decoder Message := record.decoder

open Json in
/-- The members of a message: its labels, and its body if it has one. -/
def members (m : Message) : List (String × List Char) :=
  ("labels", writeObject (m.labels.entries.map fun e => (e.1, quoteString e.2))) ::
    match m.body with
    | some b => [("body", b.write)]
    | none => []

def write (m : Message) : String := String.ofList (Json.writeObject m.members)

def parse (text : String) : Except Json.Fault Message := decoder.parseText text

end Message

end ChannelAgent
