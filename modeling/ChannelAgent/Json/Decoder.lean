import ChannelAgent.Json.Reader

set_option autoImplicit false

namespace ChannelAgent.Json

structure Decoder (α : Type) where
  /-- Reads from the text, where the given number of containers may still be opened. -/
  read : (depth : Nat) → Reader α
  /-- Reads from a buffered value. -/
  ofValue? : Value → Option α

namespace Decoder

/-- Reads a whole text: one value and white space around it. -/
def parse {α : Type} (d : Decoder α) (s : List Symbol) : Except Fault α :=
  match d.read depthLimit s with
  | .error e => .error e
  | .ok (x, rest) => if (skipSpace rest).isEmpty then .ok x else .error .malformed

def parseText {α : Type} (d : Decoder α) (text : String) : Except Fault α :=
  d.parse (text.toList.map some)

def parseBytes {α : Type} (d : Decoder α) (bytes : List UInt8) : Except Fault α :=
  d.parse (Utf8.symbols bytes)

def any : Decoder Value where
  read := value
  ofValue? := some

/-- Converts what is read; where the conversion fails, the value is a mismatch. -/
def refine {α β : Type} (d : Decoder α) (f : α → Option β) : Decoder β where
  read depth s :=
    match d.read depth s with
    | .error e => .error e
    | .ok (x, rest) =>
      match f x with
      | some y => .ok (y, rest)
      | none => .error .mismatched
  ofValue? v := (d.ofValue? v).bind f

def map {α β : Type} (d : Decoder α) (f : α → β) : Decoder β := d.refine fun x => some (f x)

def string : Decoder String where
  read _ s :=
    match skipSpace s with
    | some '"' :: rest => stringToken rest
    | [] => .error .truncated
    | s => refuse s
  ofValue?
    | .string s => some s
    | _ => none

def bool : Decoder Bool where
  read _ s :=
    match token (fun _ => .error .mismatched) (fun _ => .error .mismatched) s with
    | .error e => .error e
    | .ok (.bool b, rest) => .ok (b, rest)
    | .ok _ => .error .mismatched
  ofValue?
    | .bool b => some b
    | _ => none

/-- A natural number below `2 ^ 64`, written as an integer. -/
def word : Decoder UInt64 where
  read _ s :=
    match token (fun _ => .error .mismatched) (fun _ => .error .mismatched) s with
    | .error e => .error e
    | .ok (.number (.natural n), rest) => .ok (n, rest)
    | .ok _ => .error .mismatched
  ofValue?
    | .number (.natural n) => some n
    | _ => none

def optional {α : Type} (d : Decoder α) : Decoder (Option α) where
  read depth s :=
    match skipSpace s with
    | some 'n' :: rest => (keyword ['u', 'l', 'l'] rest).map fun r => (none, r)
    | s => (d.read depth s).map fun r => (some r.1, r.2)
  ofValue?
    | .null => some none
    | v => (d.ofValue? v).map some

/-- Opens a container, if the depth allows one more. -/
def nested {α : Type} (inside : (depth : Nat) → Reader α) : (depth : Nat) → Reader α
  | 0 => fun _ => .error .malformed
  | depth + 1 => inside depth

/-- An object with values of one type, in the order of the text. -/
def dictionary {α : Type} (d : Decoder α) : Decoder (List (String × α)) where
  read depth s :=
    match skipSpace s with
    | [] => .error .truncated
    | some '\x7b' :: rest => nested (fun depth => objectOf (d.read depth)) depth rest
    | s => refuse s
  ofValue?
    | .object members => members.mapM fun m => (d.ofValue? m.2).map fun x => (m.1, x)
    | _ => none

end Decoder

end ChannelAgent.Json
