import ChannelAgent.Frame
import ChannelAgent.Log.Entry
import ChannelAgent.Text.Blank
import ChannelAgent.Wire.Transport

set_option autoImplicit false

namespace ChannelAgent.Wire

/-- The room for arriving bytes. Bytes are read into what is left of it; when nothing is left, the
bytes in use move to the front if they fit there, and otherwise the room doubles. -/
structure Window where
  capacity : Nat
  /-- Where the bytes in use start. -/
  start : Nat
  /-- The room behind the bytes in use. -/
  free : Nat
  deriving DecidableEq, Repr

namespace Window

def initial : Window := ⟨8192, 0, 8192⟩

def ready (w : Window) : Window :=
  if 0 < w.free then w
  else if w.capacity - w.start ≤ w.start then { w with start := 0, free := w.start }
  else { w with capacity := 2 * w.capacity, free := w.capacity }

/-- The window after `n` bytes have arrived. -/
def fill (w : Window) (n : Nat) : Window := { w with free := w.free - n }

/-- The window after the bytes in use have shrunk by `n` at their front. -/
def release (w : Window) (n : Nat) : Window := { w with start := w.start + n }

end Window

/-- One direction of a stream: bytes that were written and not read yet. -/
structure Pipe where
  unread : List UInt8
  /-- Whether nothing more will be written. -/
  ended : Bool
  deriving DecidableEq, Repr

inductive Received (α : Type)
  | item (x : α)
  /-- The end of the stream. -/
  | closed
  /-- Nothing can be decided before more bytes arrive. -/
  | pending
  deriving DecidableEq, Repr

structure Inlet where
  pipe : Pipe
  reader : LineReader
  window : Window
  /-- Whether the bytes held have not been searched for a line since the last arrival. -/
  searchable : Bool
  /-- Whether the end of the input has been read. -/
  ended : Bool
  /-- Whether the last line was a fault. -/
  faulty : Bool
  deriving Repr

namespace Inlet

/-- An inlet that nothing was read from. -/
def new (pipe : Pipe) : Inlet :=
  { pipe, reader := .empty, window := .initial, searchable := false, ended := false, faulty := false }

def search (i : Inlet) : Option (Received (Except LineFault String)) × Inlet :=
  if i.searchable then
    let (found, reader) := if i.ended then i.reader.last else i.reader.next
    let i := { i with
      reader := reader
      window := i.window.release (i.reader.held.length - reader.held.length) }
    match found with
    | some (.ok text) => (some (.item (.ok text)), i)
    | some (.error e) => (some (.item (.error e)), { i with faulty := true })
    | none => (if i.ended then some .closed else none, { i with searchable := false })
  else (none, i)

/-- Takes in up to `n` bytes that have arrived. -/
def takeIn (i : Inlet) (n : Nat) : Inlet :=
  { i with
    pipe := { i.pipe with unread := i.pipe.unread.drop n }
    reader := i.reader.feed (i.pipe.unread.take n)
    window := i.window.fill n
    searchable := true
    ended := false }

/-- Searches for a line and reads more bytes, at most `rounds` times, until something is found or
nothing more has arrived. -/
def pull : (rounds : Nat) → Inlet → Received (Except LineFault String) × Inlet
  | 0, i => (.pending, i)
  | rounds + 1, i =>
    match i.search with
    | (some found, i) => (found, i)
    | (none, i) =>
      if i.pipe.unread.isEmpty then
        if i.pipe.ended then
          if i.ended then (.closed, i)
          else
            match { i with ended := true, searchable := true }.search with
            | (some found, i) => (found, i)
            | (none, i) => (.closed, i)
        else (.pending, i)
      else
        let window := i.window.ready
        let n := min window.free i.pipe.unread.length
        pull rounds ({ i with window := window }.takeIn n)

def nextLine (i : Inlet) : Received (Except LineFault String) × Inlet :=
  if i.faulty then (.closed, { i with searchable := false, faulty := false })
  else pull (i.pipe.unread.length + 1) i

def remaining (i : Inlet) : Nat := i.reader.held.length + i.pipe.unread.length

end Inlet

structure Outlet where
  written : List UInt8
  /-- Whether the other side is gone. -/
  broken : Bool
  deriving DecidableEq, Repr

structure Connection where
  inlet : Inlet
  outlet : Outlet
  deriving Repr

namespace Connection

def write (c : Connection) (f : Frame) : Except TransportError Connection :=
  if c.outlet.broken then .error (.codec .brokenPipe)
  else
    .ok { c with outlet.written := c.outlet.written ++ Utf8.encode f.write ++ [lineFeed] }

/-- Opens a connection over two pipes: the first line written binds it to the channel. -/
def opened (pipe : Pipe) (outlet : Outlet) (channel : String) (regional : Bool) :
    Except TransportError Connection :=
  write ⟨.new pipe, outlet⟩ (.opening channel regional)

def send (c : Connection) (m : Message) : Except TransportError Connection := c.write (.message m)

/-- What a line that arrived means to the one who receives. -/
inductive Meaning
  /-- A blank line. -/
  | blank
  /-- An open frame, which a broker should not send. -/
  | opening (channel : String)
  | message (m : Message)
  | failure (e : TransportError)
  deriving DecidableEq

def meaning (line : String) : Meaning :=
  if Blank.allBlank line.toList then .blank
  else
    match Frame.parse line with
    | .error e => .failure (.json e)
    | .ok (.message m) => .message m
    | .ok (.error text) => .failure (.remote text)
    | .ok (.opening channel _) => .opening channel

/-- Receives from at most `lines` lines. Channels of open frames on the way are collected. -/
def receiveFrom (channels : List String) :
    (lines : Nat) → Inlet → Received (Except TransportError Message) × List String × Inlet
  | 0, i => (.pending, channels.reverse, i)
  | lines + 1, i =>
    match i.nextLine with
    | (.pending, i) => (.pending, channels.reverse, i)
    | (.closed, i) => (.item (.error .closed), channels.reverse, i)
    | (.item (.error e), i) => (.item (.error (.codec e)), channels.reverse, i)
    | (.item (.ok line), i) =>
      match meaning line with
      | .blank => receiveFrom channels lines i
      | .opening channel => receiveFrom (channel :: channels) lines i
      | .message m => (.item (.ok m), channels.reverse, i)
      | .failure e => (.item (.error e), channels.reverse, i)

/-- The entry for an open frame that arrives. -/
def openingIgnored (channel : String) : Log.Entry :=
  Log.warn "Ignoring unexpected open frame" [("channel", channel)]

def receive (c : Connection) :
    Received (Except TransportError Message) × List Log.Entry × Connection :=
  let (result, channels, inlet) := receiveFrom [] (c.inlet.remaining + 1) c.inlet
  (result, channels.map openingIgnored, { c with inlet := inlet })

/-- More bytes arrive, unless the input has ended. -/
def feed (c : Connection) (bytes : List UInt8) : Connection :=
  if c.inlet.pipe.ended then c
  else { c with inlet.pipe.unread := c.inlet.pipe.unread ++ bytes }

def endInput (c : Connection) : Connection := { c with inlet.pipe.ended := true }

/-- The other side goes away: what it sent stays readable, and nothing can be written. -/
def hangUp (c : Connection) : Connection :=
  { c with inlet.pipe.ended := true, outlet.broken := true }

end Connection

end ChannelAgent.Wire
