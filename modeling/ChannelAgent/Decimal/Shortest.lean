import ChannelAgent.Decimal.Binary64

set_option autoImplicit false

namespace ChannelAgent.Decimal

/-- The number of decimal digits of a natural number. -/
def digitCount (n : Nat) : Nat := (Nat.toDigits 10 n).length

/-- The power of ten of the leading digit of a positive quotient. -/
def leadingPower (num den : Nat) : Int :=
  if den ≤ num then (digitCount (num / den) : Int) - 1
  else
    let j := digitCount den - digitCount num
    if den ≤ num * Nat.pow 10 j then -(j : Int) else -(j : Int) - 1

/-- The quotient divided by `10 ^ p`. -/
def onGrid (num den : Nat) (p : Int) : Nat × Nat :=
  if p < 0 then (num * Nat.pow 10 p.natAbs, den) else (num, den * Nat.pow 10 p.natAbs)

/-- The decimal `digits * 10 ^ power`. -/
structure Digits where
  digits : Nat
  power : Int
  deriving DecidableEq, Repr

/-- Moves trailing zeros of the digits into the power, at most `n` of them. -/
def strip (d : Digits) : Nat → Digits
  | 0 => d
  | n + 1 => if d.digits ≠ 0 ∧ d.digits % 10 = 0 then strip ⟨d.digits / 10, d.power + 1⟩ n else d

/-- Whether `d` lies in the interval that rounds to `x`. Its ends belong to it when the mantissa is
even, and below a power of two it is half as wide. -/
def readsBack (x : Binary64) (d : Digits) : Bool :=
  let below := if x.mantissa = Nat.pow 2 52 ∧ -1074 < x.exponent then 1 else 2
  let value : Nat × Nat :=
    if d.power < 0 then (d.digits, Nat.pow 10 d.power.natAbs)
    else (d.digits * Nat.pow 10 d.power.natAbs, 1)
  let quarter : Nat × Nat := Binary64.scaled value.1 value.2 (x.exponent - 2)
  let low := (4 * x.mantissa - below) * quarter.2
  let high := (4 * x.mantissa + 2) * quarter.2
  if x.mantissa % 2 = 0 then low ≤ quarter.1 && quarter.1 ≤ high
  else low < quarter.1 && quarter.1 < high

/-- The closer of the two neighbours of `x` with `count` digits that read back, if there is one. -/
def neighbour? (x : Binary64) (lead : Int) (count : Nat) : Option Digits :=
  let p := lead - (count : Int) + 1
  let (num, den) := onGrid x.toFraction.1 x.toFraction.2 p
  let lower : Digits := ⟨num / den, p⟩
  let upper : Digits := ⟨num / den + 1, p⟩
  match readsBack x lower, readsBack x upper with
  | true, true => some ⟨Binary64.roundQuotient num den, p⟩
  | true, false => some lower
  | false, true => some upper
  | false, false => none

/-- The fewest digits of a positive number that read back. Seventeen always suffice. -/
def shortest (x : Binary64) : Digits :=
  let lead := leadingPower x.toFraction.1 x.toFraction.2
  let found := (List.range 17).findSome? fun n => neighbour? x lead (n + 1)
  strip (found.getD ⟨x.mantissa, x.exponent⟩) 20

/-- The text of a number: positional with at least one decimal place while the leading digit stands
between the fifth decimal place and the sixteenth digit before the point, otherwise in exponent form
with a signed exponent. -/
def text (negative : Bool) (x : Binary64) : String :=
  let sign := if negative then "-" else ""
  if x.mantissa = 0 then sign ++ "0.0"
  else
    let d := shortest x
    let ds := Nat.toDigits 10 d.digits
    let lead := d.power + (ds.length : Int) - 1
    let body : List Char :=
      if lead < -5 ∨ 15 < lead then
        let tail := if ds.length = 1 then ds else ds.take 1 ++ '.' :: ds.drop 1
        tail ++ 'e' :: (if lead < 0 then '-' else '+') :: Nat.toDigits 10 lead.natAbs
      else if 0 ≤ d.power then ds ++ List.replicate d.power.natAbs '0' ++ ['.', '0']
      else if 0 ≤ lead then
        ds.take (lead.natAbs + 1) ++ '.' :: ds.drop (lead.natAbs + 1)
      else '0' :: '.' :: List.replicate (lead.natAbs - 1) '0' ++ ds
    sign ++ String.ofList body

end ChannelAgent.Decimal
