set_option autoImplicit false

namespace ChannelAgent.Base64

def digit (n : Nat) : Char :=
  if n < 26 then Char.ofNat (65 + n)
  else if n < 52 then Char.ofNat (71 + n)
  else if n < 62 then Char.ofNat (n - 4)
  else if n = 62 then '+'
  else '/'

/-- The six-bit value of a character of the alphabet. -/
def value? (c : Char) : Option Nat :=
  if 'A' ≤ c ∧ c ≤ 'Z' then some (c.toNat - 65)
  else if 'a' ≤ c ∧ c ≤ 'z' then some (c.toNat - 71)
  else if '0' ≤ c ∧ c ≤ '9' then some (c.toNat + 4)
  else if c = '+' then some 62
  else if c = '/' then some 63
  else none

/-- Writes three bytes as four characters; a last group of one or two bytes is padded. The text
written so far is kept in reverse. -/
def write (acc : List Char) : List UInt8 → List Char
  | [] => acc.reverse
  | [a] =>
    ('=' :: '=' :: digit (a.toNat % 4 * 16) :: digit (a.toNat / 4) :: acc).reverse
  | [a, b] =>
    ('=' :: digit (b.toNat % 16 * 4) :: digit (a.toNat % 4 * 16 + b.toNat / 16) ::
      digit (a.toNat / 4) :: acc).reverse
  | a :: b :: c :: rest =>
    write (digit (c.toNat % 64) :: digit (b.toNat % 16 * 4 + c.toNat / 64) ::
      digit (a.toNat % 4 * 16 + b.toNat / 16) :: digit (a.toNat / 4) :: acc) rest

def encode (bytes : List UInt8) : List Char := write [] bytes

/-- Reads groups of four characters, only the last of which may be padded. The bytes read so far are
kept in reverse. -/
def read (acc : List UInt8) : List Char → Option (List UInt8)
  | [] => some acc.reverse
  | p :: q :: r :: s :: rest =>
    match value? p, value? q, value? r, value? s with
    | some w, some x, some y, some z =>
      read (UInt8.ofNat (y % 4 * 64 + z) :: UInt8.ofNat (x % 16 * 16 + y / 4) ::
        UInt8.ofNat (w * 4 + x / 16) :: acc) rest
    | some w, some x, some y, none =>
      if s = '=' ∧ rest = [] ∧ y % 4 = 0 then
        some (UInt8.ofNat (x % 16 * 16 + y / 4) :: UInt8.ofNat (w * 4 + x / 16) :: acc).reverse
      else none
    | some w, some x, none, none =>
      if r = '=' ∧ s = '=' ∧ rest = [] ∧ x % 16 = 0 then
        some (UInt8.ofNat (w * 4 + x / 16) :: acc).reverse
      else none
    | _, _, _, _ => none
  | _ => none

/-- The bytes that the text is the written form of. -/
def decode? (text : List Char) : Option (List UInt8) := read [] text

end ChannelAgent.Base64
