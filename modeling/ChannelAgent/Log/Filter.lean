import ChannelAgent.Log.Entry
import ChannelAgent.Text.Numeral

set_option autoImplicit false

namespace ChannelAgent.Log

/-- What is kept: nothing, or entries from a severity on. -/
abbrev Threshold := Option Severity

namespace Threshold

/-- A measure of how much is kept. -/
def verbosity : Threshold → Nat
  | none => 0
  | some s => s.verbosity

def name : Threshold → String
  | none => "off"
  | some s => s.lowerName

/-- The threshold for a number from zero to five. -/
def ofNumber? : Nat → Option Threshold
  | 0 => some none
  | 1 => some (some .error)
  | 2 => some (some .warn)
  | 3 => some (some .info)
  | 4 => some (some .debug)
  | 5 => some (some .trace)
  | _ => none

/-- The threshold that a number or a name denotes, in letters of either size. -/
def parse? (text : String) : Option Threshold :=
  match (Numeral.natural? text.toList).bind ofNumber? with
  | some t => some t
  | none =>
    let all : List Threshold :=
      [none, some .error, some .warn, some .info, some .debug, some .trace]
    if text.isEmpty then some (some .error) else all.find? fun t => t.name = text.toLower

end Threshold

/-- A directive for the parts whose names start with `part`, or for all. -/
structure Directive where
  part : Option String
  threshold : Threshold
  deriving DecidableEq, Repr

namespace Directive

/-- Whether the name of a part may start with a character. -/
def canStart (c : Char) : Bool :=
  c = '-' || c = ':' || c = '_' || c.isAlphanum || 0x7F < c.toNat

/-- A directive: a threshold, a part, or both with an equals sign between them. A part alone keeps
everything. -/
def parse? (text : String) : Option Directive :=
  let cs := text.toList
  match cs with
  | [] => none
  | c :: _ =>
    if !canStart c || '[' ∈ cs then none
    else
      let first := String.ofList (cs.takeWhile (· ≠ '='))
      match cs.dropWhile (· ≠ '=') with
      | [] =>
        match Threshold.parse? first with
        | some t => some ⟨none, t⟩
        | none => some ⟨some first, some .trace⟩
      | _ :: level =>
        if level.isEmpty then some ⟨some first, some .trace⟩
        else (Threshold.parse? (String.ofList level)).map fun t => ⟨some first, t⟩

def concerns (d : Directive) (part : String) : Bool :=
  match d.part with
  | some start => start.isPrefixOf part
  | none => true

/-- How much of the name of a part a directive names. -/
def specificity (d : Directive) : Nat :=
  match d.part with
  | some start => start.utf8ByteSize + 1
  | none => 0

end Directive

structure Filter where
  directives : List Directive
  deriving DecidableEq, Repr

namespace Filter

/-- The filter that keeps the entries from a severity on. -/
def ofSeverity (s : Severity) : Filter := ⟨[⟨none, some s⟩]⟩

def parse? (text : String) : Option Filter :=
  let parts := (text.splitOn ",").filter fun p => !p.isEmpty
  (parts.mapM Directive.parse?).map Filter.mk

def directive? (f : Filter) (part : String) : Option Directive :=
  f.directives.foldl (fun best d =>
    if d.concerns part then
      match best with
      | some b => if b.specificity ≤ d.specificity then some d else some b
      | none => some d
    else best) none

def keeps (f : Filter) (part : String) (s : Severity) : Bool :=
  match f.directive? part with
  | some d => s.verbosity ≤ d.threshold.verbosity
  | none => false

/-- The threshold of the directive that keeps most. -/
def widest (f : Filter) : Threshold :=
  f.directives.foldl (fun t d => if t.verbosity < d.threshold.verbosity then d.threshold else t) none

end Filter

end ChannelAgent.Log
