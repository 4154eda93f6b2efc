import ChannelAgent.Usage.Desk

set_option autoImplicit false

namespace ChannelAgent.Usage

/-- What the caller hears of the delivery of a report. -/
def Delivery.answer (delivery : Delivery) (r : Request) : Except Fault Unit :=
  match delivery r with
  | none => .ok ()
  | some fault => .error fault

/-- A call on a logger. A status is reported at an instant, to a backend as it is then. -/
inductive Call
  | setAgent (agent : AgentProperties)
  | setCloud (cloud : CloudProperties)
  | setProperties (integration : Integration) (enabled : Bool) (cloud : CloudProperties)
  | setPlatform (platform : Platform)
  | log (status : Status) (value : String) (now : Nat) (delivery : Delivery)

namespace Call

def agent? : Call → Option AgentProperties
  | setAgent agent => some agent
  | setProperties integration enabled _ =>
    some
      { name := integration.agentName, version := integration.agentVersion, enabled
        leading := "gwap", optional := "" }
  | _ => none

/-- The properties of the instance that a call gives. -/
def cloud? : Call → Option CloudProperties
  | setCloud cloud => some cloud
  | setProperties _ _ cloud => some cloud
  | _ => none

def platform? : Call → Option Platform
  | setPlatform platform => some platform
  | _ => none

end Call

namespace Desk

/-- What a call answers, what it leaves behind, and the desk after it. -/
def perform (d : Desk) : Call → Except Fault Unit × Ledger × Desk
  | .setAgent agent => (.ok (), {}, { d with logger := d.logger.setAgent agent })
  | .setCloud cloud => (.ok (), {}, { d with logger := d.logger.setCloud cloud })
  | .setProperties integration enabled cloud =>
    (.ok (), {}, { d with logger := d.logger.setProperties integration enabled cloud })
  | .setPlatform platform => (.ok (), {}, { d with logger := d.logger.setPlatform platform })
  | .log status value now delivery => { d with now, delivery }.log status value

def after (exclusions : List String) (history : List Call) : Desk :=
  history.foldl (fun d call => (d.perform call).2.2) { logger := .new exclusions }

end Desk

namespace History

def latest? {α : Type} (given : Call → Option α) (history : List Call) : Option α :=
  (history.filterMap given).getLast?

/-- The latest agent; properties that were never set are empty, here and below. -/
def agent (history : List Call) : AgentProperties := (latest? Call.agent? history).getD {}

def cloud (history : List Call) : CloudProperties := (latest? Call.cloud? history).getD {}

def platform (history : List Call) : Platform := (latest? Call.platform? history).getD .gce

/-- An agent was set, and the latest one reports. -/
def Reporting (history : List Call) : Prop :=
  ∃ agent ∈ latest? Call.agent? history, agent.enabled = true

def place (history : List Call) : String :=
  match platform history with
  | .gce => (cloud history).zone
  | .cloudRun _ => (cloud history).region

def unplaced (history : List Call) : Fault :=
  match platform history with
  | .gce => .missingZone
  | .cloudRun _ => .missingRegion

def address (history : List Call) : String :=
  match platform history with
  | .gce => instanceUrl (cloud history)
  | .cloudRun job => jobUrl (cloud history) job

def report (history : List Call) (status : Status) (value : String) : Request where
  url := address history
  userAgent :=
    userAgent (agent history) (if value = "" then status.name else status.name ++ "/" ++ value)
  project := if (cloud history).projectId = "" then none else some (cloud history).projectId

/-- The call at some place of a history reports a status at an instant, and the agent reports
then. -/
def Notes (history : List Call) (status : Status) (i now : Nat) : Prop :=
  (∃ value delivery, history[i]? = some (.log status value now delivery)) ∧
    Reporting (history.take i)

/-- The latest call that reports a status while the agent reports is made at an instant. -/
def NotesLast (history : List Call) (status : Status) (now : Nat) : Prop :=
  ∃ i, Notes history status i now ∧ ∀ j later, Notes history status j later → j ≤ i

section

variable {history : List Call} {call : Call} {status : Status} {i now : Nat}

theorem latest?_concat {α : Type} (given : Call → Option α) (history : List Call) (call : Call) :
    latest? given (history ++ [call]) = (given call).or (latest? given history) := by
  rw [latest?, List.filterMap_append, List.getLast?_append]
  cases said : given call <;> simp [said, latest?]

theorem Notes.lt (notes : Notes history status i now) : i < history.length := by
  obtain ⟨⟨value, delivery, found⟩, -⟩ := notes
  exact (List.getElem?_eq_some_iff.1 found).1

theorem Notes.le (notes : Notes (history ++ [call]) status i now) : i ≤ history.length := by
  have bound := notes.lt
  rw [List.length_append, List.length_singleton] at bound
  omega

theorem notes_append (before : i < history.length) :
    Notes (history ++ [call]) status i now ↔ Notes history status i now := by
  rw [Notes, Notes, List.getElem?_append_left before,
    List.take_append_of_le_length (Nat.le_of_lt before)]

theorem notes_concat_length :
    Notes (history ++ [call]) status history.length now ↔
      (∃ value delivery, call = .log status value now delivery) ∧ Reporting history := by
  rw [Notes, List.getElem?_concat_length, List.take_left]
  simp only [Option.some.injEq]

/-- A call that notes nothing changes nothing. -/
theorem notesLast_of_silent
    (silent : ¬ ((∃ value now delivery, call = .log status value now delivery) ∧
      Reporting history)) :
    NotesLast (history ++ [call]) status now ↔ NotesLast history status now := by
  have same (j later : Nat) :
      Notes (history ++ [call]) status j later ↔ Notes history status j later := by
    by_cases before : j < history.length
    · exact notes_append before
    · refine ⟨fun notes => ?_, fun notes => absurd notes.lt before⟩
      obtain rfl : j = history.length := Nat.le_antisymm notes.le (Nat.not_lt.1 before)
      obtain ⟨⟨value, delivery, rfl⟩, reporting⟩ := notes_concat_length.1 notes
      exact absurd ⟨⟨value, later, delivery, rfl⟩, reporting⟩ silent
  simp only [NotesLast, same]

/-- A call that notes is the latest to note. -/
theorem notesLast_of_log {value : String} {delivery : Delivery} {later : Nat}
    (reporting : Reporting history) :
    NotesLast (history ++ [.log status value now delivery]) status later ↔ now = later := by
  have last (later : Nat) :
      Notes (history ++ [.log status value now delivery]) status history.length later ↔
        now = later := by
    rw [notes_concat_length]
    simp [reporting]
  constructor
  · rintro ⟨i, notes, latest⟩
    have reaches := latest history.length now ((last now).2 rfl)
    obtain rfl : i = history.length := Nat.le_antisymm notes.le reaches
    exact (last later).1 notes
  · intro same
    exact ⟨history.length, (last later).2 same, fun _ _ notes => notes.le⟩

end

end History

open History

/-- A logger holds what the calls on it gave last, and the instants that they noted last. -/
structure Remembers (exclusions : List String) (history : List Call) (l : Logger) : Prop where
  agent : l.agent = latest? Call.agent? history
  cloud : l.cloud = latest? Call.cloud? history
  platform : l.platform = History.platform history
  exclusions : l.exclusions = exclusions
  called : ∀ status now, l.lastCalled? status = some now ↔ NotesLast history status now

namespace Logger

theorem lastCalled?_noteCall (l : Logger) (status noted : Status) (now : Nat) :
    (l.noteCall noted now).lastCalled? status =
      if l.reporting?.isSome ∧ noted = status then some now else l.lastCalled? status := by
  unfold noteCall
  by_cases reporting : l.reporting?.isSome = true
  · by_cases same : noted = status
    · simp [reporting, same, lastCalled?]
    · simp [reporting, same, lastCalled?]
  · simp [reporting]

end Logger

namespace Remembers

variable {exclusions : List String} {history : List Call} {l : Logger}

theorem reporting?_eq_some (knows : Remembers exclusions history l) (reporting : Reporting history) :
    l.reporting? = some (History.agent history) := by
  obtain ⟨a, latest, enabled⟩ := reporting
  rw [Logger.reporting?, knows.agent, History.agent, Option.mem_def.1 latest]
  simp [enabled]

theorem reporting?_eq_none (knows : Remembers exclusions history l)
    (off : ¬ Reporting history) : l.reporting? = none := by
  rw [Logger.reporting?, knows.agent, Option.filter_eq_none_iff]
  exact fun a latest enabled => off ⟨a, latest, enabled⟩

theorem new (exclusions : List String) : Remembers exclusions [] (.new exclusions) where
  agent := rfl
  cloud := rfl
  platform := rfl
  exclusions := rfl
  called status now := by
    constructor
    · nofun
    · rintro ⟨i, notes, -⟩
      exact absurd notes.lt (Nat.not_lt_zero i)

/-- What a call has to do to a logger. -/
theorem concat {call : Call} {k : Logger} (knows : Remembers exclusions history l)
    (agent : k.agent = call.agent?.or l.agent) (cloud : k.cloud = call.cloud?.or l.cloud)
    (platform : k.platform = call.platform?.getD l.platform)
    (same : k.exclusions = l.exclusions)
    (called : ∀ status now,
      k.lastCalled? status = some now ↔ NotesLast (history ++ [call]) status now) :
    Remembers exclusions (history ++ [call]) k where
  agent := by rw [agent, knows.agent, latest?_concat]
  cloud := by rw [cloud, knows.cloud, latest?_concat]
  platform := by
    rw [platform, knows.platform, History.platform, History.platform, latest?_concat]
    cases call.platform? <;> rfl
  exclusions := same.trans knows.exclusions
  called := called

/-- A call that gives something notes nothing. -/
theorem give {call : Call} {k : Logger} (knows : Remembers exclusions history l)
    (gives : ∀ status value now delivery, call ≠ .log status value now delivery)
    (agent : k.agent = call.agent?.or l.agent) (cloud : k.cloud = call.cloud?.or l.cloud)
    (platform : k.platform = call.platform?.getD l.platform)
    (same : k.exclusions = l.exclusions) (calls : k.calls = l.calls) :
    Remembers exclusions (history ++ [call]) k := by
  refine knows.concat agent cloud platform same fun status now => ?_
  have unchanged : k.lastCalled? status = l.lastCalled? status := by
    rw [Logger.lastCalled?, calls, Logger.lastCalled?]
  have silent : ¬ ((∃ value now delivery, call = .log status value now delivery) ∧
      Reporting history) := by
    rintro ⟨⟨value, now, delivery, reports⟩, -⟩
    exact gives status value now delivery reports
  rw [unchanged, knows.called, notesLast_of_silent silent]

theorem note (knows : Remembers exclusions history l) (status : Status) (value : String)
    (now : Nat) (delivery : Delivery) :
    Remembers exclusions (history ++ [.log status value now delivery])
      (l.noteCall status now) := by
  have fields : l.noteCall status now = { l with calls := (l.noteCall status now).calls } := by
    unfold Logger.noteCall
    split <;> rfl
  refine knows.concat ?_ ?_ ?_ ?_ fun other later => ?_
  · rw [fields]; rfl
  · rw [fields]; rfl
  · rw [fields]; rfl
  · rw [fields]
  rw [Logger.lastCalled?_noteCall]
  -- the call is noted only for its own status, and only while the agent reports
  by_cases reporting : Reporting history
  · by_cases same : status = other
    · subst same
      rw [if_pos ⟨by rw [knows.reporting?_eq_some reporting]; rfl, rfl⟩, notesLast_of_log reporting,
        Option.some.injEq]
    · rw [if_neg fun both => same both.2, knows.called, notesLast_of_silent]
      rintro ⟨⟨value, now, delivery, reports⟩, -⟩
      cases reports
      exact same rfl
  · have off : ¬ l.reporting?.isSome := by simp [knows.reporting?_eq_none reporting]
    rw [if_neg fun both => off both.1, knows.called, notesLast_of_silent fun both => reporting both.2]

theorem perform {d : Desk} (knows : Remembers exclusions history d.logger) (call : Call) :
    Remembers exclusions (history ++ [call]) (d.perform call).2.2.logger := by
  cases call with
  | setAgent agent => exact knows.give nofun rfl rfl rfl rfl rfl
  | setCloud cloud => exact knows.give nofun rfl rfl rfl rfl rfl
  | setProperties integration enabled cloud => exact knows.give nofun rfl rfl rfl rfl rfl
  | setPlatform platform => exact knows.give nofun rfl rfl rfl rfl rfl
  | log status value now delivery => exact knows.note status value now delivery

theorem performed {d : Desk} (knows : Remembers exclusions history d.logger) (calls : List Call) :
    Remembers exclusions (history ++ calls)
      (calls.foldl (fun d call => (d.perform call).2.2) d).logger := by
  induction calls generalizing history d with
  | nil => rwa [List.append_nil]
  | cons call calls ih =>
    have later := ih (knows.perform call)
    rwa [List.append_assoc] at later

theorem after (exclusions : List String) (history : List Call) :
    Remembers exclusions history (Desk.after exclusions history).logger := by
  have later := (new exclusions).performed (d := { logger := .new exclusions }) history
  rwa [List.nil_append] at later

theorem url_eq (knows : Remembers exclusions history l) :
    Logger.url (l.cloud.getD {}) l.platform =
      if place history = "" then .error (unplaced history) else .ok (address history) := by
  have cloud : l.cloud.getD {} = History.cloud history := by rw [knows.cloud, History.cloud]
  rw [cloud, knows.platform, place, unplaced, address]
  cases History.platform history <;> simp [Logger.url, String.isEmpty_iff]

theorem request_eq (knows : Remembers exclusions history l) (status : Status) (value : String) :
    l.request (History.agent history) (Logger.statusText status value) =
      if place history = "" then .error (unplaced history)
      else if (History.cloud history).numericProjectId ∈ exclusions then .ok none
      else .ok (some (report history status value)) := by
  have cloud : l.cloud.getD {} = History.cloud history := by rw [knows.cloud, History.cloud]
  rw [Logger.request, knows.url_eq, knows.exclusions, cloud]
  by_cases missing : place history = ""
  · simp only [missing, ↓reduceIte]
  · by_cases excluded : (History.cloud history).numericProjectId ∈ exclusions
    · simp only [missing, excluded, ↓reduceIte]
    · simp only [missing, excluded, ↓reduceIte, report, Logger.statusText, String.isEmpty_iff]

/-- The ways in which reporting a status can end. -/
theorem outcome_cases (knows : Remembers exclusions history l) (delivery : Delivery)
    (status : Status) (value : String) :
    let o := l.outcome delivery status value
    let r := report history status value
    (¬ Reporting history ∧ o.result = .ok () ∧ o.report = none) ∨
      (Reporting history ∧ place history = "" ∧ o.result = .error (unplaced history) ∧
        o.report = none) ∨
      (Reporting history ∧ place history ≠ "" ∧
        (History.cloud history).numericProjectId ∈ exclusions ∧ o.result = .ok () ∧
        o.report = none) ∨
      (Reporting history ∧ place history ≠ "" ∧
        (History.cloud history).numericProjectId ∉ exclusions ∧ o.result = delivery.answer r ∧
        o.report = some r) := by
  by_cases reporting : Reporting history
  · have asked := knows.request_eq status value
    simp only [Logger.outcome, knows.reporting?_eq_some reporting, asked]
    by_cases missing : place history = ""
    · exact .inr (.inl ⟨reporting, missing, by simp [missing], by simp [missing]⟩)
    · by_cases excluded : (History.cloud history).numericProjectId ∈ exclusions
      · refine .inr (.inr (.inl ⟨reporting, missing, excluded, ?_, ?_⟩)) <;>
          simp [missing, excluded]
      · refine .inr (.inr (.inr ⟨reporting, missing, excluded, ?_, ?_⟩)) <;>
          simp only [missing, excluded, ↓reduceIte, Delivery.answer] <;>
          cases delivery (report history status value) <;> rfl
  · refine .inl ⟨reporting, ?_, ?_⟩ <;>
      simp only [Logger.outcome, knows.reporting?_eq_none reporting]

end Remembers

namespace Desk

/-- For every history of calls on a new logger, whatever the backend does: reporting a status makes
at most one report, and makes it just if the agent set last reports, the latest platform has its
location and the latest project is not excluded. The report is that of the latest properties, and
the answer is the backend's. An agent that does not report and an excluded project are no fault, a
missing location is one, for an excluded project as well. The instant that the logger holds for a
status is that of the latest call made for it while the agent reported. -/
theorem log_by_history (exclusions : List String) (history : List Call) (status : Status)
    (value : String) (now : Nat) (delivery : Delivery) :
    let d := after exclusions history
    let (result, ledger, _) := d.perform (.log status value now delivery)
    let r := report history status value
    let excluded := (cloud history).numericProjectId ∈ exclusions
    ledger.reports.length ≤ 1 ∧
      (ledger.reports ≠ [] ↔ Reporting history ∧ place history ≠ "" ∧ ¬ excluded) ∧
      (ledger.reports ≠ [] → ledger.reports = [(now, r)] ∧ result = delivery.answer r) ∧
      (¬ Reporting history → result = .ok ()) ∧
      (Reporting history → place history = "" → result = .error (unplaced history)) ∧
      (Reporting history → place history ≠ "" → excluded → result = .ok ()) ∧
      ∀ s t, d.logger.lastCalled? s = some t ↔ NotesLast history s t := by
  intro d
  have knows := Remembers.after exclusions history
  simp only [perform, log, Ledger.reports_ofOutcome]
  rcases knows.outcome_cases delivery status value with
    ⟨off, result, none⟩ | ⟨reporting, missing, result, none⟩ |
    ⟨reporting, placed, excluded, result, none⟩ | ⟨reporting, placed, included, result, some⟩
  · simp [off, result, none, d, knows.called]
  · simp [reporting, missing, result, none, d, knows.called]
  · simp [reporting, placed, excluded, result, none, d, knows.called]
  · simp [reporting, placed, included, result, some, d, knows.called]

/-- Without a zone an excluded project is told so. -/
example :
    ((after ["7"] [.setAgent { enabled := true }, .setCloud { numericProjectId := "7" }]).perform
      (.log .running "" 0 .sure)).1 = .error .missingZone := by
  rfl

end Desk

end ChannelAgent.Usage
