import ChannelAgent.Text.Utf8
import ChannelAgent.Json.Value

set_option autoImplicit false

namespace ChannelAgent.Json

/-- The parts of a number literal, digits as values. -/
structure Literal where
  negative : Bool
  whole : List Nat
  fraction : Option (List Nat)
  /-- Whether the exponent is negative, and its digits. -/
  exponent : Option (Bool × List Nat)
  deriving DecidableEq, Repr

def isDigit : Symbol → Bool
  | some c => '0' ≤ c ∧ c ≤ '9'
  | none => false

/-- The value of a digit, or zero for any other symbol. -/
def digitValue : Symbol → Nat
  | some c => if '0' ≤ c ∧ c ≤ '9' then c.toNat - 48 else 0
  | none => 0

def takeDigits (s : List Symbol) : List Nat × List Symbol :=
  ((s.takeWhile isDigit).map digitValue, s.dropWhile isDigit)

/-- Reads at least one digit. When there is none, `ended` is the fault at the end of the text. -/
def someDigits (ended : Fault) (s : List Symbol) : Except Fault (List Nat × List Symbol) :=
  match s with
  | [] => .error ended
  | c :: _ => if isDigit c then .ok (takeDigits s) else .error .malformed

/-- Reads the digits before the point. A zero stands alone. -/
def wholePart (ended : Fault) (s : List Symbol) : Except Fault (List Nat × List Symbol) := do
  let (digits, rest) ← someDigits ended s
  if digits.length ≠ 1 ∧ digits.head? = some 0 then .error .malformed else .ok (digits, rest)

/-- Reads the digits after a point, if there is a point. -/
def fractionPart (ended : Fault) (s : List Symbol) :
    Except Fault (Option (List Nat) × List Symbol) :=
  match s with
  | some '.' :: rest => do
    let (digits, rest) ← someDigits ended rest
    .ok (some digits, rest)
  | _ => .ok (none, s)

def exponentSign (s : List Symbol) : Bool × List Symbol :=
  match s with
  | some '-' :: rest => (true, rest)
  | some '+' :: rest => (false, rest)
  | _ => (false, s)

def exponentPart (ended : Fault) (s : List Symbol) :
    Except Fault (Option (Bool × List Nat) × List Symbol) :=
  match s with
  | some c :: rest =>
    if c = 'e' ∨ c = 'E' then do
      let (below, rest) := exponentSign rest
      let (digits, rest) ← someDigits ended rest
      .ok (some (below, digits), rest)
    else .ok (none, s)
  | _ => .ok (none, s)

/-- Reads a literal after its sign. The fault `ended` is reported where the text ends inside it. -/
def literal (ended : Fault) (negative : Bool) (s : List Symbol) :
    Except Fault (Literal × List Symbol) := do
  let (whole, rest) ← wholePart ended s
  let (fraction, rest) ← fractionPart ended rest
  let (exponent, rest) ← exponentPart ended rest
  .ok (⟨negative, whole, fraction, exponent⟩, rest)

namespace Literal

/-- The least number that a 64-bit word cannot hold. -/
abbrev wordLimit : Nat := 18446744073709551616

/-- Appends digits to a significand while it fits a 64-bit word; the digits from the first one that
does not fit are left over. -/
def significand : Nat → List Nat → Nat × List Nat
  | m, [] => (m, [])
  | m, d :: ds => if m * 10 + d < wordLimit then significand (m * 10 + d) ds else (m, d :: ds)

/-- The value of exponent digits, which stops growing at the largest 32-bit integer. -/
def exponentValue (digits : List Nat) : Nat :=
  digits.foldl (fun n d => min (n * 10 + d) 2147483647) 0

/-- Scales a number by a power of ten below `10 ^ 309` in one rounded step. -/
def scaleOnce (x : Binary64) (power : Int) : Option Binary64 := do
  let p ← Binary64.nearest (Nat.pow 10 power.natAbs) 1
  if power < 0 then x.div? p else x.mul? p

/-- Divides a number by `10 ^ n`, in rounded steps of at most `10 ^ 308`. After `rounds` full steps
the number is zero, and so it is for every number below `2 ^ 64` after three. -/
def scaleDown : (rounds : Nat) → Binary64 → (n : Nat) → Option Binary64
  | 0, _, _ => some .zero
  | rounds + 1, x, n =>
    if n ≤ 308 then scaleOnce x (-(n : Int))
    else if x.mantissa = 0 then some x
    else (scaleOnce x (-308)).bind fun y => scaleDown rounds y (n - 308)

def scale (x : Binary64) (power : Int) : Option Binary64 :=
  if power < 0 then scaleDown 4 x power.natAbs
  else if power.natAbs ≤ 308 then scaleOnce x power
  else if x.mantissa = 0 then some x
  else none

/-- The magnitude of the literal: as many leading digits as a 64-bit word holds, rounded, and then
scaled by the power of ten that remains. -/
def magnitude? (l : Literal) : Option Binary64 :=
  let (leading, left) := significand 0 l.whole
  let (digits, unread) := significand leading (l.fraction.getD [])
  let shown := (l.fraction.getD []).length - unread.length
  let written : Int :=
    match l.exponent with
    | some (true, ds) => -(exponentValue ds : Int)
    | some (false, ds) => exponentValue ds
    | none => 0
  match Binary64.nearest digits 1 with
  | some x => scale x ((left.length : Int) - (shown : Int) + written)
  | none => none

/-- The integer that a literal without fraction and exponent is written as. -/
def natural (l : Literal) : Nat := l.whole.foldl (fun n d => n * 10 + d) 0

def real? (l : Literal) : Option Number := l.magnitude?.map (Number.real l.negative)

/-- The number of the literal, or `none` if it is out of range. -/
def number? (l : Literal) : Option Number :=
  if l.fraction.isSome ∨ l.exponent.isSome then l.real?
  else if l.negative then
    if 0 < l.natural ∧ l.natural ≤ 9223372036854775808 then some (.negative l.natural) else l.real?
  else if l.natural < wordLimit then some (.natural (UInt64.ofNat l.natural))
  else l.real?

end Literal

end ChannelAgent.Json
