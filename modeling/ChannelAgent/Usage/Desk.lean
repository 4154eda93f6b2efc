import ChannelAgent.Usage.Logger

set_option autoImplicit false

namespace ChannelAgent.Usage

/-- A day and a minute, in milliseconds. -/
abbrev dailyPeriod : Nat := 86460000

/-- The task that reports RUNNING once a day. -/
inductive DailyTask
  | notStarted
  /-- It was started and has not had a turn yet. -/
  | spawned
  /-- It waits until its next report is due. -/
  | waiting (next : Nat)
  | ended (at_ : Nat)
  deriving DecidableEq, Repr

/-- A logger at an instant. -/
structure Desk where
  logger : Logger
  now : Nat := 0
  /-- How the backend takes reports now. -/
  delivery : Delivery := .sure
  daily : DailyTask := .notStarted
  /-- Whether the daily task was told to stop, which it heeds at its next turn. -/
  dailyStopped : Bool := false

/-- What calls leave behind: reports and log entries with their instants. -/
structure Ledger where
  reports : List (Nat × Request) := []
  entries : List (Nat × Log.Entry) := []
  deriving Repr

namespace Ledger

def append (a b : Ledger) : Ledger := ⟨a.reports ++ b.reports, a.entries ++ b.entries⟩

instance : Append Ledger := ⟨append⟩

def joined (ls : List Ledger) : Ledger := ⟨ls.flatMap (·.reports), ls.flatMap (·.entries)⟩

@[simp] theorem reports_append (a b : Ledger) : (a ++ b).reports = a.reports ++ b.reports := rfl

@[simp] theorem reports_joined (ls : List Ledger) :
    (joined ls).reports = ls.flatMap (·.reports) := rfl

def ofOutcome (now : Nat) (o : Outcome) : Ledger :=
  ⟨(o.report.map fun r => (now, r)).toList, o.entries.map fun e => (now, e)⟩

def ofEntries (now : Nat) (entries : List Log.Entry) : Ledger :=
  ⟨[], entries.map fun e => (now, e)⟩

@[simp] theorem reports_ofOutcome (now : Nat) (o : Outcome) :
    (ofOutcome now o).reports = (o.report.map fun r => (now, r)).toList := rfl

@[simp] theorem reports_ofEntries (now : Nat) (entries : List Log.Entry) :
    (ofEntries now entries).reports = [] := rfl

end Ledger

namespace Desk

def log (d : Desk) (status : Status) (value : String) : Except Fault Unit × Ledger × Desk :=
  let o := d.logger.outcome d.delivery status value
  (o.result, .ofOutcome d.now o, { d with logger := d.logger.noteCall status d.now })

/-- Reports a status and notes a failure in the log only. -/
def logQuietly (d : Desk) (status : Status) (value : String) : Ledger × Desk :=
  let o := Logger.quiet status (d.logger.outcome d.delivery status value)
  (.ofOutcome d.now o, { d with logger := d.logger.noteCall status d.now })

def logCode (d : Desk) (status : Status) (code : Int) : Ledger × Desk :=
  d.logQuietly status (toString code)

/-- Starts the daily task, unless it was started before; the first component says so. -/
def startDaily (d : Desk) : Bool × Ledger × Desk :=
  match d.daily with
  | .notStarted =>
    (true, .ofEntries d.now [Log.debug "Starting daily log of RUNNING status"],
      { d with daily := .spawned })
  | _ => (false, .ofEntries d.now [Log.debug "Daily log of RUNNING status already started"], d)

/-- A turn of the daily task while nothing is due. A new task reports first, and only then it looks
whether it was told to stop. -/
def turn (d : Desk) : Ledger × Desk :=
  let left : DailyTask := if d.dailyStopped then .ended d.now else .waiting (d.now + dailyPeriod)
  match d.daily with
  | .spawned =>
    let (ledger, d) := d.logQuietly .running ""
    (ledger, { d with daily := left })
  | .waiting _ => ({}, if d.dailyStopped then { d with daily := left } else d)
  | _ => ({}, d)

/-- The reports of the daily task that are due by an instant, at most `n` of them. -/
def runDaily : (n : Nat) → (until_ : Nat) → Desk → Ledger × Desk
  | 0, _, d => ({}, d)
  | n + 1, until_, d =>
    match d.daily with
    | .waiting next =>
      if next ≤ until_ then
        let (ledger, d) := { d with now := next }.logQuietly .running ""
        let (more, d) := runDaily n until_ { d with daily := .waiting (next + dailyPeriod) }
        (ledger ++ more, d)
      else ({}, d)
    | _ => ({}, d)

/-- Gives way to the daily task and lets time pass. -/
def advance (d : Desk) (ms : Nat) : Ledger × Desk :=
  let until_ := d.now + ms
  let (first, d) := d.turn
  let (ledger, d) := runDaily (ms / dailyPeriod + 1) until_ d
  (first ++ ledger, { d with now := until_ })

end Desk

end ChannelAgent.Usage
