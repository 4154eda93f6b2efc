set_option autoImplicit false

namespace ChannelAgent

abbrev nanosPerSecond : Nat := 1000000000

/-- A length of time: whole seconds in a 64-bit word and a part below one second. -/
structure Duration where
  seconds : UInt64
  nanos : UInt32
  nanos_lt : nanos.toNat < nanosPerSecond
  deriving DecidableEq, Repr

namespace Duration

def toNanos (d : Duration) : Nat := d.seconds.toNat * nanosPerSecond + d.nanos.toNat

def longest : Duration := ⟨18446744073709551615, 999999999, by decide⟩

/-- The duration of `n` nanoseconds, or the longest one if `n` does not fit. -/
def ofNanos (n : Nat) : Duration :=
  if n / nanosPerSecond < 18446744073709551616 then
    ⟨UInt64.ofNat (n / nanosPerSecond), UInt32.ofNat (n % nanosPerSecond), by
      have h : n % nanosPerSecond < nanosPerSecond := Nat.mod_lt _ (by decide)
      have k : n % nanosPerSecond < 4294967296 := Nat.lt_trans h (by decide)
      simpa [UInt32.toNat_ofNat, Nat.mod_eq_of_lt k] using h⟩
  else longest

def ofSeconds (s : UInt64) : Duration := ⟨s, 0, by decide⟩

def zero : Duration := ofSeconds 0

instance : Inhabited Duration := ⟨zero⟩

/-- Durations are ordered by seconds, then by nanoseconds. -/
def le (a b : Duration) : Bool :=
  a.seconds < b.seconds || (a.seconds == b.seconds && a.nanos ≤ b.nanos)

def min (a b : Duration) : Duration := if a.le b then a else b

/-- The product with a 32-bit factor. The nanosecond part carries into the seconds, and a product
that does not fit is the longest duration. -/
def saturatingMul (d : Duration) (k : UInt32) : Duration :=
  let part := d.nanos.toNat * k.toNat
  let whole := d.seconds.toNat * k.toNat + part / nanosPerSecond
  if whole < 18446744073709551616 then
    ⟨UInt64.ofNat whole, UInt32.ofNat (part % nanosPerSecond), by
      have h : part % nanosPerSecond < nanosPerSecond := Nat.mod_lt _ (by decide)
      have k : part % nanosPerSecond < 4294967296 := Nat.lt_trans h (by decide)
      simpa [UInt32.toNat_ofNat, Nat.mod_eq_of_lt k] using h⟩
  else longest

/-- Whole milliseconds that cover the duration. A timer never fires early. -/
def ceilMillis (d : Duration) : Nat := (d.toNanos + 999999) / 1000000

/-- How many milliseconds a pause of this duration takes. The clock counts seconds in 63 bits, and a
pause beyond its reach takes thirty years. -/
def pauseMillis (d : Duration) : Nat :=
  if d.seconds < 9223372036854775808 then d.ceilMillis else 946080000000

/-- The decimal digits of `n`, padded on the left with zeros to `width` digits. -/
def padded (width n : Nat) : List Char :=
  let digits := Nat.toDigits 10 n
  List.replicate (width - digits.length) '0' ++ digits

/-- A fraction of `width` digits without its trailing zeros, led by a point unless nothing is
left. -/
def fraction (width n : Nat) : List Char :=
  match ((padded width n).reverse.dropWhile (· = '0')).reverse with
  | [] => []
  | digits => '.' :: digits

/-- The duration in the largest unit of which it holds at least one, for instance 1.5s or 250ms. -/
def text (d : Duration) : String :=
  let n := d.toNanos
  let unit (size width : Nat) (name : String) : String :=
    String.ofList (Nat.toDigits 10 (n / size) ++ fraction width (n % size)) ++ name
  if nanosPerSecond ≤ n then unit nanosPerSecond 9 "s"
  else if 1000000 ≤ n then unit 1000000 6 "ms"
  else if 1000 ≤ n then unit 1000 3 "µs"
  else unit 1 0 "ns"

end Duration

end ChannelAgent
