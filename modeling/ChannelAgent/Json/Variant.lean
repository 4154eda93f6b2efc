import ChannelAgent.Json.Record

set_option autoImplicit false

namespace ChannelAgent.Json

/-- The variants of a tagged value, by tag. Each decodes the members without the tag. -/
abbrev Variants (α : Type) := List (String × (Value → Option α))

namespace Variants

variable {α : Type}

def tagName : String := "type"

def variant? (vs : Variants α) (tag : String) : Option (Value → Option α) :=
  (vs.find? fun v => v.1 = tag).map (·.2)

/-- Reads a tag. It is checked as soon as it is read. -/
def readTag (vs : Variants α) (s : List Symbol) :
    Except Fault ((Value → Option α) × List Symbol) :=
  (Decoder.string.refine vs.variant?).read 0 s

/-- Buffers the members of an object up to and including the closing brace, the ones read so far in
reverse, and looks out for the tag, which may occur once. -/
def readMembers (vs : Variants α) (depth : Nat) (first : Bool)
    (variant : Option (Value → Option α)) (acc : List (String × Value)) :
    (bound : List Symbol) → List Symbol → Except Fault (α × List Symbol)
  | [], _ => .error .malformed
  | _ :: bound, s =>
    match nextName first s with
    | .error e => .error e
    | .ok (none, rest) =>
      match variant.bind fun decode => decode (.object acc.reverse) with
      | some x => .ok (x, rest)
      | none => .error .mismatched
    | .ok (some name, rest) =>
      if name = tagName ∧ variant.isSome then .error .mismatched
      else
        match colon rest with
        | .error e => .error e
        | .ok rest =>
          if name = tagName then
            match vs.readTag rest with
            | .error e => .error e
            | .ok (decode, rest) => vs.readMembers depth false (some decode) acc bound rest
          else
            match value depth rest with
            | .error e => .error e
            | .ok (v, rest) => vs.readMembers depth false variant ((name, v) :: acc) bound rest

/-- Reads the list form after its opening bracket. -/
def readElements (vs : Variants α) (depth : Nat) (s : List Symbol) :
    Except Fault (α × List Symbol) :=
  match nextElement true s with
  | .error e => .error e
  | .ok (false, _) => .error .mismatched
  | .ok (true, rest) =>
    match vs.readTag rest with
    | .error e => .error e
    | .ok (decode, rest) =>
      match elements (value depth) false [] (none :: rest) rest with
      | .error e => .error e
      | .ok (items, rest) =>
        match decode (.list items) with
        | some x => .ok (x, rest)
        | none => .error .mismatched

/-- Decodes a tagged value that is buffered together with its tag. -/
def ofValue? (vs : Variants α) : Value → Option α
  | .object members =>
    match members.filter fun m => m.1 = tagName with
    | [(_, .string tag)] => do
      let decode ← vs.variant? tag
      decode (.object (members.filter fun m => m.1 ≠ tagName))
    | _ => none
  | .list (.string tag :: items) => do
    let decode ← vs.variant? tag
    decode (.list items)
  | _ => none

def decoder (vs : Variants α) : Decoder α where
  read depth s :=
    match skipSpace s with
    | [] => .error .truncated
    | some '\x7b' :: rest =>
      Decoder.nested (fun depth s => vs.readMembers depth true none [] (none :: s) s) depth rest
    | some '[' :: rest => Decoder.nested vs.readElements depth rest
    | s => refuse s
  ofValue? := vs.ofValue?

end Variants

end ChannelAgent.Json
