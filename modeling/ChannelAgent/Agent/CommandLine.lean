import ChannelAgent.Agent.OneTime
import ChannelAgent.Text.Numeral

set_option autoImplicit false

namespace ChannelAgent.Agent

inductive Refusal
  /-- Help is asked for. -/
  | help
  /-- There is nothing to do, and help is shown. -/
  | nothingGiven
  | missingSubcommand
  | unknownSubcommand
  | unknownArgument
  /-- A value is missing or empty. -/
  | invalidValue
  /-- A value is not a number. -/
  | malformedNumber
  /-- An option is given twice. -/
  | repeatedOption
  /-- An option that takes no value is given one. -/
  | needlessValue
  deriving DecidableEq, Repr

def Refusal.exitCode : Refusal → Nat
  | .help => 0
  | _ => 2

/-- Whether a refusal is written to the standard error. -/
def Refusal.isComplaint (r : Refusal) : Bool := r ≠ .help

def Refusal.text : Refusal → String
  | .help | .nothingGiven =>
    "Usage: google_cloud_example_agent [OPTIONS] <version|echo|startdaemon|logusage>"
  | .missingSubcommand => "error: a subcommand is required"
  | .unknownSubcommand => "error: unknown subcommand"
  | .unknownArgument => "error: unexpected argument"
  | .invalidValue => "error: a value is required"
  | .malformedNumber => "error: a value is no number"
  | .repeatedOption => "error: an option is given twice"
  | .needlessValue => "error: an option takes no value"

inductive OptionName
  | logFile
  | logLevel
  | text
  | config
  | agentName
  | agentVersion
  | status
  | action
  | error
  | image
  deriving DecidableEq, Repr

/-- What is wrong with the value of an option, if anything is. -/
def OptionName.refusal? (name : OptionName) (value : String) : Option Refusal :=
  match name with
  | .logFile | .config => if value.isEmpty then some .invalidValue else none
  | .action | .error => if (Numeral.int32? value).isSome then none else some .malformedNumber
  | _ => none

inductive OptionKind
  | help
  | valued (name : OptionName)
  deriving DecidableEq, Repr

inductive Subcommand
  | version
  | echo
  | startDaemon
  | logUsage
  deriving DecidableEq, Repr

namespace Subcommand

def name : Subcommand → String
  | version => "version"
  | echo => "echo"
  | startDaemon => "startdaemon"
  | logUsage => "logusage"

def ofName? (name : String) : Option Subcommand :=
  [version, echo, startDaemon, logUsage].find? fun s => s.name = name

/-- The options of a subcommand with their long names and, if they have one, their letter. -/
def options : Subcommand → List (String × Option Char × OptionName)
  | version => []
  | echo => [("text", none, .text)]
  | startDaemon => [("config", some 'c', .config)]
  | logUsage =>
    [("name", some 'n', .agentName), ("agent-version", none, .agentVersion),
      ("av", none, .agentVersion), ("status", some 's', .status), ("action", some 'a', .action),
      ("error", some 'e', .error), ("image", some 'i', .image)]

end Subcommand

def commonOptions : List (String × Option Char × OptionName) :=
  [("log-file", some 'f', .logFile), ("log-level", some 'l', .logLevel)]

/-- Where in a command line an argument stands: before the subcommand or after it. -/
abbrev Place := Option Subcommand

namespace Place

def options (p : Place) : List (String × Option Char × OptionName) :=
  commonOptions ++
    match p with
    | some s => s.options
    | none => []

def long? (p : Place) (name : String) : Option OptionKind :=
  if name = "help" then some .help
  else (p.options.find? fun o => o.1 = name).map fun o => .valued o.2.2

def short? (p : Place) (letter : Char) : Option OptionKind :=
  if letter = 'h' then some .help
  else (p.options.find? fun o => o.2.1 = some letter).map fun o => .valued o.2.2

/-- The refusal of an argument that is no option. Behind a double dash, even the name of a
subcommand is only an argument too many. -/
def stray (p : Place) (argument : String) (literal : Bool) : Refusal :=
  match p with
  | some _ => .unknownArgument
  | none =>
    if literal && (argument = "help" || (Subcommand.ofName? argument).isSome) then .unknownArgument
    else .unknownSubcommand

end Place

structure Given where
  /-- The values that were judged. -/
  values : List (OptionName × String) := []
  /-- The latest option and its value, if that was read too. -/
  pending : Option (OptionName × Option String) := none
  deriving Repr

namespace Given

def value? (g : Given) (name : OptionName) : Option String :=
  (g.values.find? fun v => v.1 = name).map (·.2)

def store (g : Given) (name : OptionName) (value : String) : Except Refusal Given :=
  if (g.value? name).isSome then .error .repeatedOption
  else
    match name.refusal? value with
    | some r => .error r
    | none => .ok { g with values := (name, value) :: g.values }

def settle (g : Given) : Except Refusal Given :=
  match g.pending with
  | none => .ok g
  | some (_, none) => .error .invalidValue
  | some (name, some value) => { g with pending := none }.store name value

/-- Whether the latest option still needs its value. -/
def awaitsValue (g : Given) : Bool :=
  match g.pending with
  | some (_, none) => true
  | _ => false

/-- Takes an option, with its value if that is attached. -/
def take (g : Given) (kind : OptionKind) (value : Option String) : Except Refusal Given := do
  match kind, value with
  | .help, some _ => .error .needlessValue
  | .help, none => let _ ← g.settle; .error .help
  | .valued name, some value => (← g.settle).store name value
  | .valued name, none => return { (← g.settle) with pending := some (name, none) }

def supply (g : Given) (value : String) : Given :=
  { g with pending := g.pending.map fun p => (p.1, some value) }

end Given

inductive ArgumentForm
  /-- A double dash, behind which nothing is an option. -/
  | doubleDash
  | long (name : String) (value : Option String)
  /-- A letter and the characters behind it. -/
  | short (letter : Char) (rest : List Char)
  | plain
  deriving DecidableEq, Repr

/-- The parts of a text before and after its first equals sign. -/
def splitAtEquals (cs : List Char) : String × Option String :=
  match cs.dropWhile (· ≠ '=') with
  | [] => (String.ofList cs, none)
  | _ :: value => (String.ofList (cs.takeWhile (· ≠ '=')), some (String.ofList value))

def ArgumentForm.of (argument : String) : ArgumentForm :=
  match argument.toList with
  | ['-', '-'] => .doubleDash
  | '-' :: '-' :: cs => let (name, value) := splitAtEquals cs; .long name value
  | '-' :: c :: cs => .short c cs
  | _ => .plain

/-- The value that stands behind the letter of an option, less an equals sign in front. -/
def attachedValue : List Char → Option String
  | [] => none
  | '=' :: cs => some (String.ofList cs)
  | cs => some (String.ofList cs)

/-- The help that is asked for by the subcommand of that name. -/
def helpFor : List String → Refusal
  | [] => .help
  | [topic] =>
    if topic = "help" || (Subcommand.ofName? topic).isSome then .help else .unknownSubcommand
  | _ => .unknownSubcommand

/-- The name of a subcommand, where one may stand. -/
def subcommandAt? (p : Place) (g : Given) (argument : String) : Option String :=
  if p.isSome || g.awaitsValue then none
  else if argument = "help" then some argument
  else (Subcommand.ofName? argument).map (·.name)

/-- Reads the arguments at a place, up to a subcommand. -/
def readArguments (p : Place) :
    List String → (literal : Bool) → Given →
      Except Refusal (Given × Option (Subcommand × List String))
  | [], _, g => .ok (g, none)
  | argument :: rest, literal, g =>
    if literal then .error (p.stray argument true)
    else
      match subcommandAt? p g argument with
      | some name =>
        match Subcommand.ofName? name with
        | some s => .ok (g, some (s, rest))
        | none => .error (helpFor rest)
      | none =>
        match ArgumentForm.of argument with
        | .doubleDash => readArguments p rest true g
        | .long name value =>
          match p.long? name with
          | none => .error .unknownArgument
          | some kind => do readArguments p rest false (← g.take kind value)
        | .short letter cs =>
          match p.short? letter with
          | none => .error .unknownArgument
          | some .help => do readArguments p rest false (← g.take .help none)
          | some kind => do readArguments p rest false (← g.take kind (attachedValue cs))
        | .plain =>
          if g.awaitsValue then readArguments p rest false (g.supply argument)
          else .error (p.stray argument false)

inductive Command
  | version
  | echo (text : String)
  | startDaemon (config : Option String)
  | logUsage (report : StatusReport)
  deriving DecidableEq, Repr

def Command.subcommand : Command → Subcommand
  | .version => .version
  | .echo _ => .echo
  | .startDaemon _ => .startDaemon
  | .logUsage _ => .logUsage

structure CommandLine where
  command : Command
  logFile : Option String := none
  logLevel : String := "info"
  deriving DecidableEq, Repr

/-- The number that is given for an option, or zero. -/
def Given.number (g : Given) (name : OptionName) : Int :=
  ((g.value? name).bind Numeral.int32?).getD 0

def Command.of (g : Given) : Subcommand → Command
  | .version => .version
  | .echo => .echo ((g.value? .text).getD "")
  | .startDaemon => .startDaemon (g.value? .config)
  | .logUsage =>
    .logUsage
      { name := g.value? .agentName, version := g.value? .agentVersion
        status := (g.value? .status).getD "", actionCode := g.number .action
        errorCode := g.number .error, image := g.value? .image }

def CommandLine.parse (arguments : List String) : Except Refusal CommandLine := do
  let (before, found) ← readArguments none arguments false {}
  match found with
  | none =>
    let before ← before.settle
    .error (if before.values.isEmpty then .nothingGiven else .missingSubcommand)
  | some (s, rest) =>
    let (after, _) ← readArguments (some s) rest false {}
    let after ← after.settle
    let before ← before.settle
    let common (name : OptionName) : Option String :=
      (after.value? name).orElse fun _ => before.value? name
    return { command := .of after s, logFile := common .logFile
             logLevel := (common .logLevel).getD "info" }

end ChannelAgent.Agent
