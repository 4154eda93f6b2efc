import ChannelAgent.Json.Decoder

set_option autoImplicit false

namespace ChannelAgent.Json

/-- One field of a record that is put together in a state of type `σ`. -/
structure Field (σ : Type) where
  name : String
  /-- What the value of the field does to the state. -/
  decoder : Decoder (σ → σ)
  /-- Whether a list of values may end before this field. -/
  mayLack : Bool := false

namespace Field

/-- A field whose value is stored by `store`. -/
def storing {σ α : Type} (name : String) (d : Decoder α) (store : α → σ → σ) : Field σ :=
  { name, decoder := d.map store }

/-- The same field when a list of values may end before it. -/
def orLacking {σ : Type} (f : Field σ) : Field σ := { f with mayLack := true }

end Field

/-- A record with its fields in the order in which a list of values gives them. -/
structure Record (σ α : Type) where
  fields : List (Field σ)
  /-- The state before any field is seen. -/
  initial : σ
  /-- The value of the record, or `none` when a field is missing. -/
  finish : σ → Option α
  /-- Whether other names are refused. -/
  closed : Bool := false

namespace Record

variable {σ α : Type}

def field? (r : Record σ α) (name : String) : Option (Field σ) :=
  r.fields.find? fun f => f.name = name

/-- Reads members up to and including the closing brace. `seen` holds the known names read so far;
a repeated one is refused before its value is looked at. -/
def readMembers (r : Record σ α) (depth : Nat) (first : Bool) (seen : List String) (state : σ) :
    (bound : List Symbol) → List Symbol → Except Fault (α × List Symbol)
  | [], _ => .error .malformed
  | _ :: bound, s =>
    match nextName first s with
    | .error e => .error e
    | .ok (none, rest) =>
      match r.finish state with
      | some x => .ok (x, rest)
      | none => .error .mismatched
    | .ok (some name, rest) =>
      match r.field? name with
      | none =>
        if r.closed then .error .mismatched
        else
          match colon rest with
          | .error e => .error e
          | .ok rest =>
            match skipValue rest with
            | .error e => .error e
            | .ok (_, rest) => r.readMembers depth false seen state bound rest
      | some f =>
        if name ∈ seen then .error .mismatched
        else
          match colon rest with
          | .error e => .error e
          | .ok rest =>
            match f.decoder.read depth rest with
            | .error e => .error e
            | .ok (store, rest) =>
              r.readMembers depth false (name :: seen) (store state) bound rest

/-- Reads the values of the given fields from a list, and the closing bracket. -/
def readElements (r : Record σ α) (depth : Nat) (first : Bool) (state : σ) :
    List (Field σ) → List Symbol → Except Fault (α × List Symbol)
  | [], s =>
    match r.finish state with
    | none => .error .mismatched
    | some x => (closeList s).map fun rest => (x, rest)
  | f :: fields, s =>
    match nextElement first s with
    | .error e => .error e
    | .ok (false, rest) =>
      if f.mayLack then r.readElements depth first state fields rest else .error .mismatched
    | .ok (true, rest) =>
      match f.decoder.read depth rest with
      | .error e => .error e
      | .ok (store, rest) => r.readElements depth false (store state) fields rest

def ofMembers? (r : Record σ α) (seen : List String) (state : σ) :
    List (String × Value) → Option α
  | [] => r.finish state
  | (name, v) :: rest =>
    match r.field? name with
    | none => if r.closed then none else r.ofMembers? seen state rest
    | some f =>
      if name ∈ seen then none
      else
        match f.decoder.ofValue? v with
        | none => none
        | some store => r.ofMembers? (name :: seen) (store state) rest

/-- Reads a list of values that is already buffered. -/
def ofElements? (r : Record σ α) (state : σ) : List (Field σ) → List Value → Option α
  | [], [] => r.finish state
  | [], _ :: _ => none
  | f :: fields, [] => if f.mayLack then r.ofElements? state fields [] else none
  | f :: fields, v :: rest =>
    match f.decoder.ofValue? v with
    | none => none
    | some store => r.ofElements? (store state) fields rest

def decoder (r : Record σ α) : Decoder α where
  read depth s :=
    match skipSpace s with
    | [] => .error .truncated
    | some '\x7b' :: rest =>
      Decoder.nested (fun depth s => r.readMembers depth true [] r.initial (none :: s) s) depth rest
    | some '[' :: rest =>
      Decoder.nested (fun depth => r.readElements depth true r.initial r.fields) depth rest
    | s => refuse s
  ofValue?
    | .object members => r.ofMembers? [] r.initial members
    | .list items => r.ofElements? r.initial r.fields items
    | _ => none

end Record

end ChannelAgent.Json
