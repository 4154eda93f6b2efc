set_option autoImplicit false

namespace ChannelAgent

/-- A character of a text, or `none` for a byte that is part of no character. -/
abbrev Symbol := Option Char

namespace Utf8

/-- The six payload bits of a continuation byte. -/
def continuation? (b : UInt8) : Option Nat :=
  if b &&& 0xC0 = 0x80 then some (b &&& 0x3F).toNat else none

/-- A code point of at least `least`, so that no shorter form exists, and not a surrogate. -/
def scalar? (least code : Nat) : Option Char :=
  if h : least ≤ code ∧ code.isValidChar then some (Char.ofNatAux code h.2) else none

/-- The character at the front of the bytes, with the number of bytes that follow its first one. -/
def character? : List UInt8 → Option (Char × Nat)
  | [] => none
  | a :: rest =>
    if a < 0x80 then some (Char.ofNat a.toNat, 0)
    else if a < 0xC2 then none
    else if a < 0xE0 then
      match rest with
      | b :: _ => do
        let x ← continuation? b
        let c ← scalar? 0x80 ((a &&& 0x1F).toNat * 64 + x)
        some (c, 1)
      | _ => none
    else if a < 0xF0 then
      match rest with
      | b :: c :: _ => do
        let x ← continuation? b
        let y ← continuation? c
        let ch ← scalar? 0x800 (((a &&& 0x0F).toNat * 64 + x) * 64 + y)
        some (ch, 2)
      | _ => none
    else if a < 0xF5 then
      match rest with
      | b :: c :: d :: _ => do
        let x ← continuation? b
        let y ← continuation? c
        let z ← continuation? d
        let ch ← scalar? 0x10000 ((((a &&& 0x07).toNat * 64 + x) * 64 + y) * 64 + z)
        some (ch, 3)
      | _ => none
    else none

/-- The symbols of the bytes, after those already collected in reverse. -/
def collect (acc : List Symbol) : List UInt8 → List Symbol
  | [] => acc.reverse
  | a :: rest =>
    match character? (a :: rest) with
    | some (c, more) => collect (some c :: acc) (rest.drop more)
    | none => collect (none :: acc) rest
termination_by bytes => bytes.length
decreasing_by all_goals (simp only [List.length_drop, List.length_cons]; omega)

def symbols (bytes : List UInt8) : List Symbol := collect [] bytes

/-- The text of the bytes, if every byte belongs to a character. -/
def decode? (bytes : List UInt8) : Option String :=
  let read := symbols bytes
  if read.all Option.isSome then some (String.ofList (read.filterMap id)) else none

/-- How many bytes at the front, where no character starts, look like the beginning of one. -/
def brokenLength : List UInt8 → Nat
  | a :: b :: rest =>
    let second (low high : UInt8) : Bool := low ≤ b && b ≤ high
    let third : Bool :=
      match rest with
      | c :: _ => (continuation? c).isSome
      | [] => false
    if 0xE0 ≤ a ∧ a < 0xF0 then
      if second (if a = 0xE0 then 0xA0 else 0x80) (if a = 0xED then 0x9F else 0xBF) then 2 else 1
    else if 0xF0 ≤ a ∧ a < 0xF5 then
      if second (if a = 0xF0 then 0x90 else 0x80) (if a = 0xF4 then 0x8F else 0xBF) then
        if third then 3 else 2
      else 1
    else 1
  | _ => 1

/-- The characters of the bytes, after those already collected in reverse, with one replacement
character for each beginning of a character that does not go on. -/
def mend (acc : List Char) : List UInt8 → List Char
  | [] => acc.reverse
  | a :: rest =>
    match character? (a :: rest) with
    | some (c, more) => mend (c :: acc) (rest.drop more)
    | none => mend ('\uFFFD' :: acc) (rest.drop (brokenLength (a :: rest) - 1))
termination_by bytes => bytes.length
decreasing_by all_goals (simp only [List.length_drop, List.length_cons]; omega)

/-- The bytes as a text, whatever they are. -/
def lossy (bytes : List UInt8) : String := String.ofList (mend [] bytes)

def encode (text : String) : List UInt8 := text.toList.flatMap String.utf8EncodeChar

def width : Symbol → Nat
  | some c => c.utf8Size
  | none => 1

/-- Whether the symbols take up at least `n` bytes. -/
def hasBytes : Nat → List Symbol → Bool
  | 0, _ => true
  | _ + 1, [] => false
  | n + 1, s :: rest => hasBytes (n + 1 - width s) rest

end Utf8

end ChannelAgent
