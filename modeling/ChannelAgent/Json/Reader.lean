import ChannelAgent.Json.Token

set_option autoImplicit false

namespace ChannelAgent.Json

/-- A text may nest this many containers. -/
abbrev depthLimit : Nat := 127

/-- Reads elements up to and including the closing bracket, the ones read so far in reverse. -/
def elements {α : Type} (item : Reader α) (first : Bool) (acc : List α) :
    (bound : List Symbol) → List Symbol → Except Fault (List α × List Symbol)
  | [], _ => .error .malformed
  | _ :: bound, s =>
    match nextElement first s with
    | .error e => .error e
    | .ok (false, rest) => (closeList rest).map fun r => (acc.reverse, r)
    | .ok (true, rest) =>
      match item rest with
      | .error e => .error e
      | .ok (x, rest) => elements item false (x :: acc) bound rest

def listOf {α : Type} (item : Reader α) : Reader (List α) := fun s =>
  elements item true [] (none :: s) s

/-- Reads members up to and including the closing brace, the ones read so far in reverse. -/
def members {α : Type} (item : Reader α) (first : Bool) (acc : List (String × α)) :
    (bound : List Symbol) → List Symbol → Except Fault (List (String × α) × List Symbol)
  | [], _ => .error .malformed
  | _ :: bound, s =>
    match nextName first s with
    | .error e => .error e
    | .ok (none, rest) => .ok (acc.reverse, rest)
    | .ok (some name, rest) =>
      match colon rest with
      | .error e => .error e
      | .ok rest =>
        match item rest with
        | .error e => .error e
        | .ok (x, rest) => members item false ((name, x) :: acc) bound rest

def objectOf {α : Type} (item : Reader α) : Reader (List (String × α)) := fun s =>
  members item true [] (none :: s) s

/-- Buffers a value in which at most `depth` containers stand inside each other. -/
def value : (depth : Nat) → Reader Value
  | 0 => token (fun _ => .error .malformed) (fun _ => .error .malformed)
  | depth + 1 =>
    token (fun s => (listOf (value depth) s).map fun r => (.list r.1, r.2))
      (fun s => (objectOf (value depth) s).map fun r => (.object r.1, r.2))

/-- The containers that are open around the place of a reader, the innermost first; `true` stands
for a list. -/
abbrev Enclosing := List Bool

def skipName (s : List Symbol) : Except Fault (List Symbol) :=
  match skipSpace s with
  | [] => .error .truncated
  | c :: rest => if c = some '"' then (skipString .plain rest).bind colon else .error .malformed

inductive Seek
  /-- A value. -/
  | value
  /-- What follows a value: a comma or a closing. -/
  | afterValue
  /-- What follows an opening: a value or a closing. -/
  | afterOpen
  deriving DecidableEq, Repr

/-- Skips a scalar whose first character is `c`. -/
def skipScalar (c : Char) (rest : List Symbol) : Except Fault (List Symbol) :=
  if c = 'n' then keyword ['u', 'l', 'l'] rest
  else if c = 't' then keyword ['r', 'u', 'e'] rest
  else if c = 'f' then keyword ['a', 'l', 's', 'e'] rest
  else if c = '-' then skipNumber rest
  else if '0' ≤ c ∧ c ≤ '9' then skipNumber (some c :: rest)
  else if c = '"' then skipString .plain rest
  else .error .malformed

/-- What is looked for at the symbol `c`: after an opening bracket, anything but the closing one
starts a value. -/
def Seek.atSymbol (seek : Seek) (enclosing : Enclosing) (c : Char) : Seek :=
  if seek = .afterOpen ∧ enclosing.head? = some true ∧ c ≠ ']' then .value else seek

/-- Skips up to the end of the value that the open containers belong to. -/
def skipFrom : (bound : List Symbol) → Seek → Enclosing → List Symbol →
    Except Fault (List Symbol)
  | [], _, _, _ => .error .malformed
  | _ :: bound, seek, enclosing, s =>
    if seek = .afterValue ∧ enclosing = [] then .ok s
    else
      match skipSpace s with
      | [] => .error .truncated
      | none :: _ => .error .malformed
      | some c :: rest =>
        match seek.atSymbol enclosing c, enclosing with
        | .value, _ =>
          if c = '[' then skipFrom bound .afterOpen (true :: enclosing) rest
          else if c = '\x7b' then skipFrom bound .afterOpen (false :: enclosing) rest
          else
            match skipScalar c rest with
            | .error e => .error e
            | .ok rest => skipFrom bound .afterValue enclosing rest
        | _, [] => .error .malformed
        | .afterOpen, isList :: outer =>
          if c = (if isList then ']' else '\x7d') then skipFrom bound .afterValue outer rest
          else
            match skipName (some c :: rest) with
            | .error e => .error e
            | .ok rest => skipFrom bound .value enclosing rest
        | .afterValue, isList :: outer =>
          if c = (if isList then ']' else '\x7d') then skipFrom bound .afterValue outer rest
          else if c ≠ ',' then .error .malformed
          else if isList then skipFrom bound .value enclosing rest
          else
            match skipName rest with
            | .error e => .error e
            | .ok rest => skipFrom bound .value enclosing rest

/-- Behind a value that nothing encloses the reader stops. -/
theorem skipFrom_ended (b : Symbol) (bound s : List Symbol) :
    skipFrom (b :: bound) .afterValue [] s = .ok s := by
  simp only [skipFrom, and_self, ↓reduceIte]

def skipValue : Reader Unit := fun s =>
  match skipFrom (none :: s) .value [] s with
  | .error e => .error e
  | .ok rest => .ok ((), rest)

end ChannelAgent.Json
