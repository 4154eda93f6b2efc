import ChannelAgent.Proofs.Wire.Dispatch
import ChannelAgent.Session.Dialogue

set_option autoImplicit false

namespace ChannelAgent

namespace Wire

theorem withoutReturn_encode (text : String) :
    ∃ shown : String, withoutReturn (Utf8.encode text) = Utf8.encode shown ∧
      shown.toList <+: text.toList := by
  by_cases returned : (Utf8.encode text).getLast? = some 13
  · rw [withoutReturn, if_pos returned]
    rcases List.eq_nil_or_concat text.toList with none | ⟨front, last, split⟩
    · rw [Utf8.encode, none] at returned
      cases returned
    · have bytes : Utf8.encode text =
          front.flatMap String.utf8EncodeChar ++ String.utf8EncodeChar last := by
        rw [Utf8.encode, split, List.concat_eq_append, List.flatMap_append]
        simp
      -- only a carriage return ends in its byte, and it has no other
      have inside : (13 : UInt8) ∈ Utf8.encode (String.ofList [last]) := by
        obtain ⟨b, more, encoded, -⟩ := Utf8.character_encode last
        have last_byte : (String.utf8EncodeChar last).getLast? = some 13 := by
          simpa [bytes, List.getLast?_append, encoded] using returned
        rw [Utf8.encode_ofList, List.flatMap_singleton]
        exact List.mem_of_getLast? last_byte
      have same : '\r' = last := by
        simpa using Utf8.mem_of_mem_encode (c := '\r') (by decide) rfl inside
      subst same
      refine ⟨String.ofList front, ?_, ?_⟩
      · rw [bytes, Utf8.encode_ofList]
        exact List.dropLast_concat
      · rw [split, String.toList_ofList, List.concat_eq_append]
        exact List.prefix_append _ _
  · exact ⟨text, by rw [withoutReturn, if_neg returned], List.prefix_refl _⟩

theorem verdict?_blank {text : String} (blank : Blank.allBlank text.toList = true)
    (short : (Utf8.encode text).length ≤ lineLimit) :
    verdict? .arriving (Utf8.encode text) = none := by
  obtain ⟨shown, bytes, front⟩ := withoutReturn_encode text
  have fits : Limit.arriving.exceeded (Utf8.encode text) = false := by
    simpa [Limit.arriving] using short
  have bare : Blank.allBlank shown.toList = true :=
    List.all_eq_true.2 fun c found => List.all_eq_true.1 blank c (front.mem found)
  simp only [verdict?, fits, Bool.false_eq_true, ↓reduceIte, bytes, Utf8.decode?_encode, bare]

theorem Connection.receive_outlet (c : Connection) : c.receive.2.2.outlet = c.outlet := rfl

end Wire

namespace Session

open Wire

/-- A message that names the operation it asks for. -/
structure Inquiry where
  message : Message
  operationId : String
  named : message.operationId? = some operationId

/-- The status message that gives the body back. -/
def Inquiry.answer (q : Inquiry) : Message := .status q.operationId .succeeded q.message.body

inductive Utterance
  | inquiry (q : Inquiry)
  | opening (channel : String) (regional : Bool)
  /-- White space in one line. -/
  | blank (text : String) (bare : Blank.allBlank text.toList = true) (single : '\n' ∉ text.toList)

namespace Utterance

def line : Utterance → List UInt8
  | inquiry q => (Frame.message q.message).line
  | opening channel regional => (Frame.opening channel regional).line
  | blank text _ _ => Utf8.encode text

def inquiry? : Utterance → Option Inquiry
  | inquiry q => some q
  | _ => none

def stream (said : List Utterance) : List UInt8 := said.flatMap fun u => u.line ++ [lineFeed]

theorem lineFeed_notMem_line (u : Utterance) : lineFeed ∉ u.line := by
  cases u with
  | inquiry q => exact Frame.lineFeed_notMem_line _
  | opening channel regional => exact Frame.lineFeed_notMem_line _
  | blank text bare single =>
    exact fun found => single (Utf8.mem_of_mem_encode (by decide) rfl found)

theorem verdict?_line {u : Utterance} (short : u.line.length ≤ lineLimit) :
    verdict? .arriving u.line = u.inquiry?.map fun q => .ok q.message := by
  cases u with
  | inquiry q => exact verdict?_frame short
  | opening channel regional => exact verdict?_frame short
  | blank text bare single => exact verdict?_blank bare short

theorem stream_cons (u : Utterance) (said : List Utterance) :
    stream (u :: said) = u.line ++ lineFeed :: stream said := by simp [stream]

theorem results_stream {said : List Utterance} (fit : ∀ u ∈ said, u.line.length ≤ lineLimit) :
    Wire.results .arriving false (stream said) =
      (said.filterMap inquiry?).map fun q => .ok q.message := by
  induction said with
  | nil => exact Wire.results_nil false
  | cons u said ih =>
    obtain ⟨short, fit⟩ := List.forall_mem_cons.1 fit
    rw [stream_cons, Wire.results_cons u.lineFeed_notMem_line, verdict?_line short, ih fit,
      List.filterMap_cons]
    cases u.inquiry? <;> rfl

theorem length_inquiries_le (said : List Utterance) :
    (said.filterMap inquiry?).length ≤ (stream said).length := by
  induction said with
  | nil => exact Nat.le_refl 0
  | cons u said ih =>
    rw [stream_cons, List.length_append, List.length_cons, List.filterMap_cons]
    split
    · omega
    · rw [List.length_cons]
      omega

end Utterance

namespace Dialogue

def owed : Stage → List Message
  | .handling id request => [.status id .succeeded request]
  | .acknowledging _ status => [status]
  | _ => []

/-- A dialogue on a connection that nothing is wrong with, in which `awaited` have yet to be
received and whose output will be `total`. -/
structure Echoing (total : List UInt8) (d : Dialogue) (awaited : List Inquiry) : Prop where
  alert : d.connection.inlet.Alert
  running : d.connection.inlet.pipe.ended = false
  stays : d.leaves = false
  whole : d.connection.outlet.broken = false
  holds : d.connection.inlet.owed false d.coming.flatten = awaited.map fun q => .ok q.message
  promised : d.connection.outlet.written ++
    text ((owed d.state.stage ++ awaited.map Inquiry.answer).map .message) = total
  clear : d.state.lastFailure = none

/-- A bound on the steps up to the end of the dialogue: three for each message, one for each
piece. -/
def toGo (d : Dialogue) (awaited : List Inquiry) : Nat :=
  3 * awaited.length + d.coming.length +
    match d.state.stage with
    | .handling .. => 2
    | .acknowledging .. => 1
    | _ => 0

/-- A dialogue that has come to its end without a failure. -/
structure Echoed (total : List UInt8) (d : Dialogue) : Prop where
  ended : d.state.stage = .finished
  clear : d.state.result = .ok ()
  written : d.connection.outlet.written = total

/-- The session waits for an inquiry or is at work on one. -/
def Busy (d : Dialogue) : Prop :=
  match d.state.stage with
  | .listening | .handling .. | .acknowledging .. => True
  | _ => False

def Progress (total : List UInt8) (d : Dialogue) (awaited : List Inquiry) (next : Dialogue) : Prop :=
  Echoed total next ∨
    ∃ later, Echoing total next later ∧ next.toGo later < d.toGo awaited ∧
      next.Busy

section

variable {total : List UInt8} {d : Dialogue} {awaited : List Inquiry}

/-- Nothing can be decided yet: the next piece arrives, or the session is stopped. -/
theorem Echoing.waits (echoing : Echoing total d awaited) (listening : d.state.stage = .listening)
    {log : List Log.Entry} {c : Connection} (received : d.connection.receive = (.pending, log, c))
    (alert : c.inlet.Alert) (running : c.inlet.pipe.ended = false)
    (outlet : c.outlet = d.connection.outlet)
    (holds : c.inlet.owed false d.coming.flatten = awaited.map fun q => .ok q.message)
    (silent : d.connection.inlet.owed false [] = []) :
    Progress total d awaited d.receive.1 := by
  cases coming : d.coming with
  | cons piece rest =>
    right
    refine ⟨awaited, ⟨?_, ?_, ?_, ?_, ?_, ?_, ?_⟩, ?_, ?_⟩ <;>
      simp only [receive, received, coming, after]
    · exact Connection.alert_after alert (show Action.feed piece ≠ .receive from nofun)
    · simp [Connection.feed, running]
    · exact echoing.stays
    · simp [Connection.feed, running, outlet, echoing.whole]
    · simpa [Connection.feed, running, Inlet.owed, coming] using holds
    · simpa [Connection.feed, running, outlet] using echoing.promised
    · exact echoing.clear
    · simp only [toGo, listening, coming, List.length_cons]
      omega
    · simp only [Busy, listening]
  | nil =>
    left
    have none : awaited = [] := by
      have all := echoing.holds
      rw [coming, List.flatten_nil, silent] at all
      exact List.map_eq_nil_iff.1 all.symm
    refine ⟨?_, ?_, ?_⟩ <;>
      simp only [receive, received, coming, echoing.stays, after, goOn, Bool.false_eq_true,
        ↓reduceIte]
    · rfl
    · simp [State.finish, State.result, echoing.clear]
    · simpa [listening, none, owed, text, outlet] using echoing.promised

/-- The next inquiry is handed to the handler. -/
theorem Echoing.takes {q : Inquiry} (echoing : Echoing total d (q :: awaited))
    (listening : d.state.stage = .listening) {log : List Log.Entry} {c : Connection}
    (received : d.connection.receive = (.item (.ok q.message), log, c))
    (alert : c.inlet.Alert) (running : c.inlet.pipe.ended = false)
    (outlet : c.outlet = d.connection.outlet)
    (holds : c.inlet.owed false d.coming.flatten = awaited.map fun q => .ok q.message) :
    Progress total d (q :: awaited) d.receive.1 := by
  have labelled := Message.hasLabels_of_operationId? q.named
  have handled : (d.state.onReceived q.message).1 =
      { d.state with
        stage := .handling q.operationId q.message.body, backoff := d.state.backoff.reset } := by
    simp [State.onReceived, labelled, q.named]
  right
  refine ⟨awaited, ⟨?_, ?_, ?_, ?_, ?_, ?_, ?_⟩, ?_, ?_⟩ <;>
    simp only [receive, received, after, goOn, fst_heard, handled]
  · exact alert
  · exact running
  · exact echoing.stays
  · rw [outlet, echoing.whole]
  · exact holds
  · simpa [listening, owed, outlet, Inquiry.answer] using echoing.promised
  · exact echoing.clear
  · simp only [toGo, listening, List.length_cons]
    omega
  · trivial

theorem Echoing.listen (echoing : Echoing total d awaited)
    (listening : d.state.stage = .listening) : Progress total d awaited d.receive.1 := by
  have answers := Connection.receive_answers echoing.alert
  have outlet := d.connection.receive_outlet
  generalize received : d.connection.receive = turn at answers outlet
  obtain ⟨found, log, c⟩ := turn
  have running : c.inlet.pipe.ended = false := answers.pays.ended.trans echoing.running
  -- what is received comes first among what is awaited
  have paid := answers.pays.paid false d.coming.flatten (by simp [echoing.running])
  rw [echoing.holds] at paid
  cases said : found.outcome? with
  | none =>
    have silent := answers.spent said
    rw [said] at paid
    rw [echoing.running] at silent
    obtain rfl : found = .pending := by
      have pending := answers.said
      rwa [echoing.running, silent] at pending
    exact echoing.waits listening received (answers.alert nofun) running outlet paid silent
  | some result =>
    rw [said] at paid
    cases awaited with
    | nil => cases paid
    | cons q awaited =>
      obtain ⟨rfl, holds⟩ := List.cons.inj paid
      obtain rfl := Received.eq_item_of_outcome? said
      exact echoing.takes listening received (answers.alert (by simp)) running outlet holds

theorem Echoing.handle (echoing : Echoing total d awaited) {id : String} {request : Option Body}
    (handling : d.state.stage = .handling id request) : Progress total d awaited d.step.1 := by
  right
  refine ⟨awaited, ⟨?_, ?_, ?_, ?_, ?_, ?_, ?_⟩, ?_, ?_⟩ <;>
    simp only [step, handling, after, goOn, State.onHandled, State.acknowledgement]
  · exact echoing.alert
  · exact echoing.running
  · exact echoing.stays
  · exact echoing.whole
  · exact echoing.holds
  · simpa [handling, owed] using echoing.promised
  · exact echoing.clear
  · simp only [toGo, handling]
    omega
  · trivial

theorem Echoing.acknowledge (echoing : Echoing total d awaited) {id : String} {status : Message}
    (acknowledging : d.state.stage = .acknowledging id status) :
    Progress total d awaited d.step.1 := by
  have sent : d.connection.send status = _ := Connection.write_eq echoing.whole (.message status)
  right
  refine ⟨awaited, ⟨?_, ?_, ?_, ?_, ?_, ?_, ?_⟩, ?_, ?_⟩ <;>
    simp only [step, acknowledging, sent, after, goOn, State.onSent]
  · exact echoing.alert
  · exact echoing.running
  · exact echoing.stays
  · exact echoing.whole
  · exact echoing.holds
  · simpa [acknowledging, owed, text] using echoing.promised
  · exact echoing.clear
  · simp only [toGo, acknowledging]
    omega
  · trivial

end

section

variable {total : List UInt8} {d : Dialogue} {awaited : List Inquiry}

theorem Echoing.step (echoing : Echoing total d awaited) (busy : d.Busy) :
    Progress total d awaited d.step.1 := by
  cases stage : d.state.stage with
  | listening =>
    rw [Dialogue.step, stage]
    exact echoing.listen stage
  | handling id request => exact echoing.handle stage
  | acknowledging id status => exact echoing.acknowledge stage
  | connecting | pausing | finished => simp [Busy, stage] at busy

theorem steps_of_finished (ended : d.state.stage = .finished) (n : Nat) (waited : Bool) :
    (d.steps n waited).1 = d := by
  cases n with
  | zero => rfl
  | succ n => rw [steps, if_pos ended]

theorem steps_of_busy (busy : d.Busy) (n : Nat) (waited : Bool) :
    ∃ waits, (d.steps (n + 1) waited).1 = (d.step.1.steps n waits).1 := by
  have going : d.state.stage ≠ .finished := by
    intro ended
    simp [Busy, ended] at busy
  rw [steps, if_neg going]
  exact ⟨_, rfl⟩

theorem Echoing.steps {n : Nat} (echoing : Echoing total d awaited) (busy : d.Busy)
    (enough : d.toGo awaited < n) (waited : Bool) : Echoed total (d.steps n waited).1 := by
  induction n generalizing d awaited waited with
  | zero => exact absurd enough (Nat.not_lt_zero _)
  | succ n ih =>
    obtain ⟨waits, same⟩ := steps_of_busy busy n waited
    rw [same]
    rcases echoing.step busy with done | ⟨later, next, less, busy⟩
    · rw [steps_of_finished done.ended]
      exact done
    · exact ih next busy (by omega) waits

end

/-- A dialogue on a connection that was just opened, on which `first` has arrived already. -/
theorem echoing_start {channel : String} {said : List Utterance} {first : List UInt8}
    {pieces : List (List UInt8)} (fit : ∀ u ∈ said, u.line.length ≤ lineLimit)
    (whole : first ++ pieces.flatten = Utterance.stream said) {c : Connection}
    (opened : Connection.opened ⟨first, false⟩ ⟨[], false⟩ channel true = .ok c)
    (properties : CloudProperties) :
    let inquiries := said.filterMap Utterance.inquiry?
    let d := (start c pieces false properties).1
    d.Busy ∧
      Echoing (text (.opening channel true :: (inquiries.map Inquiry.answer).map .message)) d
        inquiries ∧
      d.toGo inquiries < d.bound := by
  intro inquiries d
  rw [Connection.opened, Connection.write_eq rfl] at opened
  obtain rfl := Except.ok.inj opened
  refine ⟨trivial, ⟨Inlet.alert_new _, rfl, rfl, rfl, ?_, ?_, rfl⟩, ?_⟩
  · change Wire.results .arriving false (first ++ pieces.flatten) = _
    rw [whole, Utterance.results_stream fit]
  · simp [d, start, State.onConnected, owed, text]
  · have few := Utterance.length_inquiries_le said
    rw [← whole, List.length_append] at few
    simp only [d, inquiries, start, toGo, bound, State.onConnected, fst_heard, Inlet.remaining,
      Inlet.new, LineReader.empty, List.length_nil]
    omega

/-- A session with the echo handler on a connection over which inquiries arrive, with blank lines
and open frames among them, each line no longer than allowed and the bytes cut anywhere: when
nothing more comes it is stopped, ends without a failure, and has written the open frame and then
for each inquiry, in order, its status message with the body of the inquiry. Every line it wrote is
read back as that frame. -/
theorem answers_each_inquiry (channel : String) (properties : CloudProperties)
    (said : List Utterance) (fit : ∀ u ∈ said, u.line.length ≤ lineLimit) (first : List UInt8)
    (pieces : List (List UInt8)) (whole : first ++ pieces.flatten = Utterance.stream said) :
    ∃ c, Connection.opened ⟨first, false⟩ ⟨[], false⟩ channel true = .ok c ∧
      let last := (start c pieces false properties).1.run.1
      let frames := Frame.opening channel true ::
        ((said.filterMap Utterance.inquiry?).map Inquiry.answer).map .message
      last.state.stage = .finished ∧ last.state.result = .ok () ∧
        last.connection.outlet.written = text frames ∧
        ((lines .arriving false last.connection.outlet.written).map fun line =>
          (Utf8.decode? line).map Frame.parse) = frames.map fun f => some (.ok f) := by
  have opened : ∃ c, Connection.opened ⟨first, false⟩ ⟨[], false⟩ channel true = .ok c :=
    ⟨_, Connection.write_eq rfl _⟩
  obtain ⟨c, opened⟩ := opened
  obtain ⟨busy, echoing, enough⟩ := echoing_start fit whole opened properties
  obtain ⟨ended, clear, written⟩ := echoing.steps busy enough false
  refine ⟨c, opened, ended, clear, written, ?_⟩
  rw [run, written, parse_text]

/-- A blank line, an inquiry with a body, an open frame and an inquiry with an empty id and no
body. -/
def chatter : List Utterance :=
  [.blank " \t\r" (by decide) (by decide),
    .inquiry ⟨⟨.ofList [("state", "new"), ("operation_id", "7\n")], some ⟨"t", [0, 255]⟩⟩, "7\n", rfl⟩,
    .opening "other" false, .inquiry ⟨⟨.ofList [("operation_id", "")], none⟩, "", rfl⟩]

/-- The bytes are cut inside the first frame and before its line feed. -/
theorem answers_each_inquiry_amid_chatter :
    (∀ u ∈ chatter, u.line.length ≤ lineLimit) ∧
      ∃ c, Connection.opened ⟨(Utterance.stream chatter).take 9, false⟩ ⟨[], false⟩ "c" true = .ok c ∧
        (start c [(Utterance.stream chatter).drop 9] false {}).1.run.1.connection.outlet.written =
          text [.opening "c" true,
            .message (.status "7\n" .succeeded (some ⟨"t", [0, 255]⟩)),
            .message (.status "" .succeeded none)] := by
  have fit : ∀ u ∈ chatter, u.line.length ≤ lineLimit := by decide +kernel
  obtain ⟨c, opened, -, -, written, -⟩ := answers_each_inquiry "c" {} chatter fit
    ((Utterance.stream chatter).take 9) [(Utterance.stream chatter).drop 9] (by simp)
  exact ⟨fit, c, opened, written⟩

end Dialogue

end Session

end ChannelAgent
