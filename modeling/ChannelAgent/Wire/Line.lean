import ChannelAgent.Text.Utf8

set_option autoImplicit false

namespace ChannelAgent.Wire

/-- The longest line, in bytes. -/
abbrev lineLimit : Nat := 4194304

abbrev lineFeed : UInt8 := 10

/-- What is wrong with a line, or with the stream that lines are written to. -/
inductive LineFault
  | tooLong
  | notUtf8
  /-- The other side is gone and nothing can be written. -/
  | brokenPipe
  deriving DecidableEq, Repr

def LineFault.text : LineFault → String
  | .tooLong => "max line length exceeded"
  | .notUtf8 => "Unable to decode input as UTF8"
  | .brokenPipe => "broken pipe"

/-- The front of the bytes, up to the first line feed. -/
inductive Cut
  /-- No line feed has arrived yet. -/
  | incomplete
  /-- More bytes than a line may hold have arrived without a line feed. -/
  | tooLong
  /-- A line without its line feed, and what follows it. -/
  | line (bytes rest : List UInt8)
  deriving DecidableEq, Repr

/-- Looks for the end of a line that may take `room` more bytes; `acc` holds its bytes in
reverse. -/
def cut (room : Nat) (acc : List UInt8) : List UInt8 → Cut
  | [] => .incomplete
  | b :: rest =>
    if b = lineFeed then .line acc.reverse rest
    else
      match room with
      | 0 => .tooLong
      | room + 1 => cut room (b :: acc) rest

/-- The bytes after the first line feed, if there is one. -/
def afterLineFeed : List UInt8 → Option (List UInt8)
  | [] => none
  | b :: rest => if b = lineFeed then some rest else afterLineFeed rest

/-- A line without the carriage return at its end. -/
def withoutReturn (bytes : List UInt8) : List UInt8 :=
  if bytes.getLast? = some 13 then bytes.dropLast else bytes

def lineText (bytes : List UInt8) : Except LineFault String :=
  match Utf8.decode? (withoutReturn bytes) with
  | some text => .ok text
  | none => .error .notUtf8

/-- Bytes that have arrived and are not given out yet. -/
structure LineReader where
  held : List UInt8
  /-- Whether the bytes up to the next line feed belong to a line that was too long. -/
  discarding : Bool
  deriving DecidableEq, Repr

namespace LineReader

def empty : LineReader := ⟨[], false⟩

def feed (r : LineReader) (bytes : List UInt8) : LineReader := { r with held := r.held ++ bytes }

/-- Drops what is left of a line that was too long. -/
def discard (r : LineReader) : LineReader :=
  if r.discarding then
    match afterLineFeed r.held with
    | some rest => ⟨rest, false⟩
    | none => ⟨[], true⟩
  else r

/-- The next line, a fault, or nothing when no line is complete. -/
def next (r : LineReader) : Option (Except LineFault String) × LineReader :=
  let r := r.discard
  match cut lineLimit [] r.held with
  | .incomplete => (none, r)
  | .tooLong => (some (.error .tooLong), { r with discarding := true })
  | .line bytes rest => (some (lineText bytes), { r with held := rest })

/-- The next line when no more bytes will arrive: a last line needs no line feed, and a carriage
return alone is no line. -/
def last (r : LineReader) : Option (Except LineFault String) × LineReader :=
  match r.next with
  | (none, r) =>
    if r.held = [] ∨ r.held = [13] then (none, r)
    else (some (lineText r.held), { r with held := [] })
  | found => found

end LineReader

end ChannelAgent.Wire
