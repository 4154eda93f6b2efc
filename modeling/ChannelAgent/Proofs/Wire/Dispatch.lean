import ChannelAgent.Proofs.Wire.Stream

set_option autoImplicit false

namespace ChannelAgent.Wire

/-- The bytes of frames, each on a line of its own. -/
def text (frames : List Frame) : List UInt8 := frames.flatMap fun f => f.line ++ [lineFeed]

theorem text_cons (f : Frame) (frames : List Frame) :
    text (f :: frames) = f.line ++ lineFeed :: text frames := by simp [text]

theorem count_text (frames : List Frame) : (text frames).count lineFeed = frames.length := by
  induction frames with
  | nil => rfl
  | cons f frames ih =>
    have none : f.line.count lineFeed = 0 := List.count_eq_zero.2 f.lineFeed_notMem_line
    rw [text_cons, List.count_append, none, List.count_cons_self, ih, List.length_cons,
      Nat.zero_add]

theorem return_notMem_text (frames : List Frame) : 13 ∉ text frames := by
  intro found
  obtain ⟨f, -, inside⟩ := List.mem_flatMap.1 found
  rcases List.mem_append.1 inside with line | last
  · exact f.return_notMem_line line
  · exact absurd last (by decide)

theorem lines_text (frames : List Frame) :
    lines .arriving false (text frames) = frames.map Frame.line := by
  induction frames with
  | nil =>
    rw [text, List.flatMap_nil, lines_free List.not_mem_nil]
    rfl
  | cons f frames ih => rw [text_cons, lines_cons f.lineFeed_notMem_line, ih, List.map_cons]

theorem results_text {frames : List Frame} (fit : ∀ f ∈ frames, f.line.length ≤ lineLimit)
    (atEnd : Bool) : results .arriving atEnd (text frames) = frames.filterMap gist? := by
  induction frames with
  | nil => exact results_nil atEnd
  | cons f frames ih =>
    obtain ⟨short, fit⟩ := List.forall_mem_cons.1 fit
    rw [text_cons, results_cons f.lineFeed_notMem_line, verdict?_frame short, ih fit,
      List.filterMap_cons]
    cases gist? f <;> rfl

/-- Every line of the text is read back as the frame it was written for. -/
theorem parse_text (frames : List Frame) :
    ((lines .arriving false (text frames)).map fun line => (Utf8.decode? line).map Frame.parse) =
      frames.map fun f => some (.ok f) := by
  rw [lines_text, List.map_map]
  apply List.map_congr_left
  intro f _
  simp only [Function.comp_apply, f.decode?_line, Option.map_some, f.parse_write]

section

variable {bytes : List UInt8} {said : List (Except TransportError Message)}

theorem answer_item (all : results .arriving true bytes = said) {n : Nat} (more : n < said.length) :
    answer .arriving true bytes n = .item said[n] := by
  rw [answer, all, List.getElem?_eq_getElem more]

theorem answer_closed (all : results .arriving true bytes = said) {n : Nat}
    (done : said.length ≤ n) : answer .arriving true bytes n = .item (.error .closed) := by
  rw [answer, all, List.getElem?_eq_none done]
  rfl

/-- The answers in turn, once the stream is over. -/
theorem map_answer (all : results .arriving true bytes = said) (k : Nat) :
    (List.range (said.length + k)).map (answer .arriving true bytes) =
      said.map .item ++ List.replicate k (.item (.error .closed)) := by
  rw [List.range_add, List.map_append, List.map_map]
  congr 1
  · apply List.ext_getElem (by simp)
    intro n _ _
    simp only [List.getElem_map, List.getElem_range]
    exact answer_item all _
  · apply List.eq_replicate_iff.2
    refine ⟨by simp, List.forall_mem_map.2 fun n _ => ?_⟩
    exact answer_closed all (Nat.le_add_right _ n)

theorem answered_append (found later : List (Received (Except TransportError Message))) :
    answered (found ++ later) = answered found + answered later := by
  induction found with
  | nil => simp [answered]
  | cons first found ih => rw [List.cons_append, answered, answered, ih, Nat.add_assoc]

/-- At the end nobody has to wait. -/
theorem answered_map_answer (n : Nat) :
    answered ((List.range n).map (answer .arriving true bytes)) = n := by
  induction n with
  | zero => rfl
  | succ n ih =>
    have one : (answer .arriving true bytes n).answers = 1 := by
      unfold answer
      split <;> rfl
    rw [List.range_succ, List.map_append, answered_append, ih]
    simp [answered, one]

end

namespace Connection

theorem write_eq {c : Connection} (whole : c.outlet.broken = false) (f : Frame) :
    c.write f = .ok { c with outlet.written := c.outlet.written ++ (f.line ++ [lineFeed]) } := by
  rw [write, whole, if_neg Bool.false_ne_true, List.append_assoc]
  rfl

theorem send_all {c : Connection} (whole : c.outlet.broken = false) (ms : List Message) :
    ∃ d, ms.foldlM send c = .ok d ∧
      d.outlet.written = c.outlet.written ++ text (ms.map .message) := by
  induction ms generalizing c with
  | nil => exact ⟨c, rfl, by simp [text]⟩
  | cons m ms ih =>
    let line := (Frame.message m).line
    let next := { c with outlet.written := c.outlet.written ++ (line ++ [lineFeed]) }
    have sent : c.send m = .ok next := write_eq whole (.message m)
    obtain ⟨d, rest, written⟩ := ih (c := next) whole
    refine ⟨d, ?_, ?_⟩
    · rw [List.foldlM_cons, sent]
      exact rest
    · rw [written, List.map_cons, text_cons]
      simp [next, line]

/-- Opens a connection and sends messages over it. -/
def dispatch (pipe : Pipe) (channel : String) (regional : Bool) (ms : List Message) :
    Except TransportError Connection :=
  (opened pipe ⟨[], false⟩ channel regional).bind (ms.foldlM send)

theorem dispatch_ok (pipe : Pipe) (channel : String) (regional : Bool) (ms : List Message) :
    ∃ c, dispatch pipe channel regional ms = .ok c ∧
      c.outlet.written = text (.opening channel regional :: ms.map .message) := by
  let first : Connection := ⟨.new pipe, ⟨text [.opening channel regional], false⟩⟩
  have bound : opened pipe ⟨[], false⟩ channel regional = .ok first := by
    rw [opened, write_eq rfl]
    simp [first, text]
  obtain ⟨c, sent, written⟩ := send_all (c := first) rfl ms
  refine ⟨c, by rw [dispatch, bound]; exact sent, ?_⟩
  rw [written, text_cons]
  simp [first, text]

/-- The chunks of a stream arrive, and then its end. -/
def arrive (chunks : List (List UInt8)) : List Action := chunks.map .feed ++ [.endInput]

theorem arrivals_arrive (chunks : List (List UInt8)) (later : List Action) :
    arrivals (arrive chunks ++ later) = chunks.flatten := by
  induction chunks with
  | nil => rfl
  | cons bytes chunks ih => exact congrArg (bytes ++ ·) ih

theorem isOver_arrive (chunks : List (List UInt8)) (later : List Action) :
    isOver (arrive chunks ++ later) = true := by
  induction chunks with
  | nil => rfl
  | cons bytes chunks ih => exact ih

theorem run_arrive (c : Connection) (chunks : List (List UInt8)) :
    (run c (arrive chunks)).1 = [] := by
  induction chunks generalizing c with
  | nil => rfl
  | cons bytes chunks ih => exact ih (c.feed bytes)

/-- Once everything has arrived, the stream is given out from its first line to its end. -/
theorem run_receives {chunks : List (List UInt8)} {said : List (Except TransportError Message)}
    (all : results .arriving true chunks.flatten = said)
    (clean : ∀ fault, .error (.codec fault) ∉ said) (outlet : Outlet) (n : Nat) :
    (run ⟨.new ⟨[], false⟩, outlet⟩ (arrive chunks ++ List.replicate n .receive)).1 =
      (List.range n).map (answer .arriving true chunks.flatten) := by
  let c : Connection := ⟨.new ⟨[], false⟩, outlet⟩
  change (run c _).1 = _
  induction n with
  | zero => rw [List.replicate_zero, List.append_nil, run_arrive, List.range_zero, List.map_nil]
  | succ n ih =>
    let before := arrive chunks ++ List.replicate n .receive
    -- no fault so far, so what the stream has to say decides the next receive
    have faultless : ∀ fault, .item (.error (.codec fault)) ∉ (run c before).1 := by
      intro fault found
      rw [ih] at found
      obtain ⟨j, -, given⟩ := List.mem_map.1 found
      by_cases more : j < said.length
      · rw [answer_item all more] at given
        injection given with given
        exact clean fault (given ▸ List.getElem_mem more)
      · rw [answer_closed all (Nat.le_of_not_lt more)] at given
        cases given
    have next := receive_run (c := c) (Inlet.alert_new _) before faultless
    have ended : isOver before = true := isOver_arrive chunks _
    have whole : arrivals before = chunks.flatten := arrivals_arrive chunks _
    rw [due_new, whole, ended, ih, answered_map_answer] at next
    rw [List.replicate_succ', ← List.append_assoc, run_append, ih, List.range_succ, List.map_append]
    exact congrArg (fun last => _ ++ [last]) next

theorem filterMap_gist (channel : String) (regional : Bool) (ms : List Message) :
    (Frame.opening channel regional :: ms.map .message).filterMap gist? = ms.map .ok := by
  rw [List.filterMap_cons_none rfl, List.filterMap_map]
  exact congrFun List.filterMap_eq_map ms

/-- Opening a connection and sending messages writes one line for each, and whoever is given the
bytes, in whatever chunks, receives the messages and then the end. -/
theorem sent_is_received (pipe : Pipe) (channel : String) (regional : Bool) (ms : List Message)
    (opening : (Frame.opening channel regional).line.length ≤ lineLimit)
    (fit : ∀ m ∈ ms, (Frame.message m).line.length ≤ lineLimit) :
    ∃ c, dispatch pipe channel regional ms = .ok c ∧
      c.outlet.written.count lineFeed = ms.length + 1 ∧
      13 ∉ c.outlet.written ∧
      ((lines .arriving false c.outlet.written).map fun line =>
        (Utf8.decode? line).map Frame.parse) =
          some (.ok (.opening channel regional)) :: ms.map (fun m => some (.ok (.message m))) ∧
      ∀ chunks : List (List UInt8), chunks.flatten = c.outlet.written →
        ∀ (outlet : Outlet) (k : Nat),
          (run ⟨.new ⟨[], false⟩, outlet⟩
            (arrive chunks ++ List.replicate (ms.length + k) .receive)).1 =
              ms.map (fun m => .item (.ok m)) ++ List.replicate k (.item (.error .closed)) := by
  obtain ⟨c, sent, written⟩ := dispatch_ok pipe channel regional ms
  have short : ∀ f ∈ Frame.opening channel regional :: ms.map .message,
      f.line.length ≤ lineLimit :=
    List.forall_mem_cons.2 ⟨opening, List.forall_mem_map.2 fit⟩
  have said := (results_text short true).trans (filterMap_gist channel regional ms)
  refine ⟨c, sent, ?_⟩
  rw [written]
  refine ⟨by rw [count_text]; simp, return_notMem_text _, ?_, ?_⟩
  · rw [parse_text]
    simp
  · intro chunks same outlet k
    rw [← same] at said
    have turns := map_answer said k
    rw [List.length_map, List.map_map] at turns
    have received := run_receives said (by simp) outlet (ms.length + k)
    rw [received, turns]
    rfl

/-- A message whose label holds the end of a line, cut in the middle of its frame. -/
theorem sent_is_received_despite_lineFeed :
    let m : Message := ⟨.ofList [("operation_id", "1\n2")], none⟩
    (Frame.opening "c" true).line.length ≤ lineLimit ∧
      (∀ n ∈ [m], (Frame.message n).line.length ≤ lineLimit) ∧
      (run ⟨.new ⟨[], false⟩, ⟨[], false⟩⟩
        (arrive [(text [.opening "c" true, .message m]).take 50,
          (text [.opening "c" true, .message m]).drop 50] ++ List.replicate 2 .receive)).1 =
        [.item (.ok m), .item (.error .closed)] := by
  intro m
  have opening : (Frame.opening "c" true).line.length ≤ lineLimit := by decide
  have fit : ∀ n ∈ [m], (Frame.message n).line.length ≤ lineLimit := by
    intro n found
    rw [List.mem_singleton.1 found]
    decide
  obtain ⟨c, sent, -, -, -, received⟩ := sent_is_received ⟨[], false⟩ "c" true [m] opening fit
  obtain ⟨d, again, written⟩ := dispatch_ok ⟨[], false⟩ "c" true [m]
  rw [sent] at again
  obtain rfl := Except.ok.inj again
  have whole : [(text [.opening "c" true, .message m]).take 50,
      (text [.opening "c" true, .message m]).drop 50].flatten = c.outlet.written := by
    rw [written]
    simp
  exact ⟨opening, fit, received _ whole ⟨[], false⟩ 1⟩

end Connection

end ChannelAgent.Wire
