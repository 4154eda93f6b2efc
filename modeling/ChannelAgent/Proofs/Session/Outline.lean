import ChannelAgent.Proofs.Session.Answers
import ChannelAgent.Proofs.Session.Translation
import Mathlib.Data.List.Forall2

set_option autoImplicit false

namespace ChannelAgent

namespace Message

/-- Messages alike in what a session looks at. -/
structure Agrees (a b : Message) : Prop where
  hasLabels : a.hasLabels = b.hasLabels
  operationId : a.operationId? = b.operationId?

/-- A message with no more than a session looks at. Where there are labels, but no operation id, a
label with no name stands for them. -/
def outline (m : Message) : Message :=
  match m.operationId? with
  | some id => ⟨.ofList [(operationIdLabel, id)], none⟩
  | none => if m.hasLabels then ⟨.ofList [("", "")], none⟩ else empty

theorem agrees_outline (m : Message) : m.outline.Agrees m := by
  unfold outline
  split
  · rename_i id identified
    have labelled : m.hasLabels = true := hasLabels_of_operationId? identified
    exact ⟨labelled.symm, identified.symm⟩
  · rename_i anonymous
    split
    · rename_i labelled
      exact ⟨labelled.symm, anonymous.symm⟩
    · rename_i bare
      exact ⟨(Bool.eq_false_iff.2 bare).symm, anonymous.symm⟩

theorem body_outline (m : Message) : m.outline.body = none := by
  unfold outline
  split
  · rfl
  · split <;> rfl

theorem Agrees.outline {a b : Message} (agrees : a.Agrees b) : a.outline = b.outline := by
  rw [Message.outline, Message.outline, agrees.operationId, agrees.hasLabels]

end Message

namespace Session

variable {β : Type}

/-- What a handler call came to, without its response. -/
def Reply.outcome : Reply → Except String Unit
  | .failure text => .error text
  | _ => .ok ()

/-- Steps of the same length that give the stop signal alike, with results that are related. -/
structure Step.Agrees {α : Type} (related : α → α → Prop) (a b : Step α) : Prop where
  stops : a.stops = b.stops
  takes : a.takes = b.takes
  result : related a.result b.result

/-- A receive fails alike, or it gets messages alike in what a session looks at. -/
inductive ReceivedAlike : Except TransportError Message → Except TransportError Message → Prop
  | failed (cause : TransportError) : ReceivedAlike (.error cause) (.error cause)
  | received {a b : Message} (agrees : a.Agrees b) : ReceivedAlike (.ok a) (.ok b)

/-- Handler calls end alike, whatever they respond. -/
def HandledAlike (a b : Step Reply × Bool) : Prop :=
  a.1.Agrees (fun p q => p.outcome = q.outcome) b.1 ∧ a.2 = b.2

/-- The same surroundings, apart from what a session does not look at. -/
structure Script.Agrees (a b : Script) : Prop where
  connects : a.connects = b.connects
  connectDefault : a.connectDefault = b.connectDefault
  receives : List.Forall₂ (Step.Agrees ReceivedAlike) a.receives b.receives
  sends : a.sends = b.sends
  handles : List.Forall₂ HandledAlike a.handles b.handles

/-- An event without the bodies of requests and responses, and with the outline of a request. The
labels of a status message stay. -/
def Event.outline : Event → Event
  | .received m => .received m.outline
  | .handling _ properties stopping => .handling none properties stopping
  | .handled id result => .handled id (result.map fun _ => none)
  | .sending connection m => .sending connection { m with body := none }
  | e => e

def outline (events : List Timed) : List Timed := events.map fun e => (e.1, e.2.outline)

namespace Translation

/-- Nothing travels but outlines. -/
def outlining : Translation where
  offset := 0
  body _ := none
  message := Message.outline
  reply
    | .failure text => .failure text
    | _ => .echo
  body_none := rfl
  hasLabels_message m := m.agrees_outline.hasLabels
  operationId?_message m := m.agrees_outline.operationId
  body_message := Message.body_outline
  reply_echo := rfl
  result_reply p request := by cases p <;> rfl

theorem event_outlining : outlining.event = Event.outline := by
  funext e
  cases e <;> rfl

theorem events_outlining : outlining.events = Session.outline := by
  funext l
  rw [events, event_outlining]
  rfl

theorem reply_outlining {p q : Reply} (same : p.outcome = q.outcome) :
    outlining.reply p = outlining.reply q := by
  cases p <;> cases q <;> cases same <;> rfl

theorem map_eq_of_forall₂ {α β : Type} {related : α → α → Prop} {f : α → β}
    (same : ∀ {a b}, related a b → f a = f b) {as bs : List α} (alike : List.Forall₂ related as bs) :
    as.map f = bs.map f := by
  induction alike with
  | nil => rfl
  | cons here _ ih => rw [List.map_cons, List.map_cons, same here, ih]

theorem received_outlining {x y : Step (Except TransportError Message)}
    (alike : x.Agrees ReceivedAlike y) : outlining.received x = outlining.received y := by
  obtain ⟨stops, takes, result⟩ := x
  obtain ⟨stops', takes', result'⟩ := y
  obtain ⟨rfl, rfl, received⟩ := alike
  cases received with
  | failed => rfl
  | received agrees =>
    have same : Except.ok (ε := TransportError) (Message.outline _) = .ok (Message.outline _) :=
      congrArg _ agrees.outline
    exact congrArg (Step.mk stops takes) same

theorem handled_outlining {x y : Step Reply × Bool} (alike : HandledAlike x y) :
    outlining.handled x = outlining.handled y := by
  obtain ⟨⟨stops, takes, result⟩, waits⟩ := x
  obtain ⟨⟨rfl, rfl, same⟩, rfl⟩ := alike
  simp only [handled, reply_outlining same]

theorem script_outlining {a b : Script} (agrees : a.Agrees b) :
    outlining.script a = outlining.script b := by
  obtain ⟨connects, connectDefault, receives, sends, handles⟩ := a
  obtain ⟨rfl, rfl, received, rfl, handled⟩ := agrees
  simp only [script, map_eq_of_forall₂ @received_outlining received,
    map_eq_of_forall₂ @handled_outlining handled]

theorem run_outlining {a b : Script} (agrees : a.Agrees b) (earlier : Run β) (signal : Signal)
    (properties : CloudProperties) :
    outlining.run (earlier.again signal a properties) =
      outlining.run (earlier.again signal b properties) := by
  simp only [run, Run.again, script_outlining agrees]

end Translation

theorem mem_answers {sent : Nat} {labels : List (String × String)} {body : Option Body} :
    ∀ {asked : List Request} {came : List (Except String (Option Body))},
      .send sent labels body ∈ answers asked came →
        ∃ request ∈ asked, ∃ result, labels = statusLabels request.operationId result
  | [], _, found => nomatch found
  | request :: _, [], found => by cases found with | tail _ found => cases found
  | request :: asked, result :: came, found => by
    rw [answers] at found
    cases found with
    | tail _ found =>
      cases found with
      | head => exact ⟨request, List.mem_cons_self, result, rfl⟩
      | tail _ found =>
        obtain ⟨other, listed, result, same⟩ := mem_answers found
        exact ⟨other, List.mem_cons_of_mem _ listed, result, same⟩

theorem mem_requests {request : Request} {connection : Nat} {events : List Timed}
    (found : request ∈ requests connection events) :
    ∃ t m, (t, .received m) ∈ events ∧ m.operationId? = some request.operationId := by
  have later {e : Timed} {events : List Timed}
      (rest : ∃ t m, (t, .received m) ∈ events ∧ m.operationId? = some request.operationId) :
      ∃ t m, (t, .received m) ∈ e :: events ∧ m.operationId? = some request.operationId := by
    obtain ⟨t, m, listed, identified⟩ := rest
    exact ⟨t, m, List.mem_cons_of_mem _ listed, identified⟩
  fun_induction requests connection events with
  | case1 => cases found
  | case2 _ _ _ _ ih => exact later (ih found)
  | case3 connection t m rest id identified ih =>
    rcases List.mem_cons.1 found with rfl | found
    · exact ⟨t, m, List.mem_cons_self, identified⟩
    · exact later (ih found)
  | case4 _ _ _ _ _ ih => exact later (ih found)
  | case5 _ _ _ _ _ ih => exact later (ih found)

variable [RetryPolicy β]

/-- The labels of a status message say nothing of a request but its operation id. -/
theorem sent_labels {earlier : Run β} {signal : Signal} {script : Script} {properties : CloudProperties}
    {n t sent : Nat} {m : Message}
    (shown : (t, .sending sent m) ∈ ((earlier.again signal script properties).steps n).2) :
    ∃ t' request id result,
      (t', .received request) ∈ ((earlier.again signal script properties).steps n).2 ∧
        request.operationId? = some id ∧ m.labels.entries = statusLabels id result := by
  have accounted := accounted_steps n (earlier.again signal script properties) rfl 0
  have called : .send sent m.labels.entries m.body ∈
      calls ((earlier.again signal script properties).steps n).2 :=
    List.mem_filterMap.2 ⟨_, shown, rfl⟩
  obtain ⟨request, asked, result, labels⟩ := mem_answers (accounted.front.subset called)
  obtain ⟨t', m', received, identified⟩ := mem_requests asked
  exact ⟨t', m', _, result, received, identified, labels⟩

/-- Two runs whose surroundings differ in nothing but the bodies and the other labels of requests
and the responses of handlers have the same outline, step by step: the same connects, pauses,
resets, receives and handler calls at the same instants, the same labels of status messages, and the
same result. A status message repeats no label of a request but the operation id. -/
theorem same_outline (earlier : Run β) (signal : Signal) (properties : CloudProperties)
    (a b : Script) (agrees : a.Agrees b) (n : Nat) :
    let one := (earlier.again signal a properties).steps n
    let other := (earlier.again signal b properties).steps n
    outline one.2 = outline other.2 ∧ one.1.state.result = other.1.state.result ∧
      one.1.now = other.1.now ∧ one.1.hung = other.1.hung ∧
      (one.1.state.stage = .finished ↔ other.1.state.stage = .finished) ∧
      ∀ t sent m, (t, .sending sent m) ∈ one.2 → ∃ t' request id result,
        (t', .received request) ∈ one.2 ∧ request.operationId? = some id ∧
          m.labels.entries = statusLabels id result := by
  intro one other
  have outlined (script : Script) :
      (Translation.outlining.run (earlier.again signal script properties)).steps n =
        ((earlier.again signal script properties).steps n).map Translation.outlining.run
          Translation.outlining.events :=
    Translation.outlining.steps_run n nofun
  have same : one.map Translation.outlining.run Translation.outlining.events =
      other.map Translation.outlining.run Translation.outlining.events := by
    rw [← outlined, ← outlined, Translation.run_outlining agrees]
  obtain ⟨runs, events⟩ := Prod.mk.inj same
  rw [Translation.events_outlining] at events
  have result := congrArg (fun r : Run β => r.state.result) runs
  have stage := congrArg (fun r : Run β => r.state.stage) runs
  have now := congrArg Run.now runs
  have hung := congrArg Run.hung runs
  have finished : one.1.state.stage = .finished ↔ other.1.state.stage = .finished := by
    rw [← Translation.outlining.finished_stage one.1.state.stage,
      ← Translation.outlining.finished_stage other.1.state.stage]
    exact iff_of_eq (congrArg (· = Stage.finished) stage)
  exact ⟨events, result, now, hung, finished, fun t sent m shown => sent_labels shown⟩

/-- A request that names a state and a stage, and has a body, is acknowledged like one that does
not. -/
theorem same_outline_of_misleading_labels :
    let connected : Step (Except TransportError Unit) := ⟨false, some 1, .ok ()⟩
    let plain : Message := ⟨.ofList [("operation_id", "7")], none⟩
    let misleading : Message :=
      ⟨.ofList [("operation_id", "7"), ("state", "FAILED"), ("lro_state", "running")],
        some ⟨"type", [1, 2]⟩⟩
    let script (m : Message) (reply : Reply) : Script :=
      ⟨[connected], connected, [⟨false, some 2, .ok m⟩], [], [(⟨false, some 3, reply⟩, false)]⟩
    let a := script plain .echo
    let b := script misleading (.body none)
    let earlier := Run.start Backoff.standard 0 .silent (.refusing .closed) {}
    let session (s : Script) : Run Backoff := earlier.again .silent s {}
    a.Agrees b ∧ outline ((session a).steps 5).2 = outline ((session b).steps 5).2 ∧
      ∃ m, (6, .sending 1 m) ∈ ((session b).steps 5).2 ∧
        m.labels.entries = [("lro_state", "done"), ("operation_id", "7"), ("state", "SUCCEEDED")] := by
  intro connected plain misleading script a b earlier session
  have messages : plain.Agrees misleading := ⟨by decide, by decide⟩
  have agrees : a.Agrees b :=
    ⟨rfl, rfl, .cons ⟨rfl, rfl, .received messages⟩ .nil, rfl, .cons ⟨⟨rfl, rfl, rfl⟩, rfl⟩ .nil⟩
  have sent : ((session b).steps 5).2[8]? = some (6, .sending 1 (.status "7" .succeeded none)) := by
    rfl
  exact ⟨agrees, (same_outline earlier .silent {} a b agrees 5).1, _, List.mem_of_getElem? sent,
    Message.entries_status ..⟩

end Session

end ChannelAgent
