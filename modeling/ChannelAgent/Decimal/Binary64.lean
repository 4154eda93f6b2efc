set_option autoImplicit false

namespace ChannelAgent

/-- The number `mantissa * 2 ^ exponent`. -/
structure Binary64 where
  mantissa : Nat
  exponent : Int
  deriving DecidableEq, Repr

namespace Binary64

def zero : Binary64 := ⟨0, -1074⟩

def toFraction (x : Binary64) : Nat × Nat :=
  if x.exponent < 0 then (x.mantissa, Nat.pow 2 x.exponent.natAbs)
  else (x.mantissa * Nat.pow 2 x.exponent.natAbs, 1)

/-- The natural number closest to a quotient, of two equally close ones the even one. -/
def roundQuotient (num den : Nat) : Nat :=
  let q := num / den
  let twice := 2 * (num % den)
  if twice < den ∨ (twice = den ∧ q % 2 = 0) then q else q + 1

/-- The quotient divided by `2 ^ e`. -/
def scaled (num den : Nat) (e : Int) : Nat × Nat :=
  if e < 0 then (num * Nat.pow 2 e.natAbs, den) else (num, den * Nat.pow 2 e.natAbs)

/-- The number closest to a quotient, or `none` if that would exceed the largest one. -/
def nearest (num den : Nat) : Option Binary64 :=
  if num = 0 then some zero
  else
    let guess : Int := (num.log2 : Int) - (den.log2 : Int) - 52
    let fits := scaled num den guess
    let low := if fits.1 < fits.2 * Nat.pow 2 52 then guess - 1 else guess
    let e := max low (-1074)
    let part := scaled num den e
    let m := roundQuotient part.1 part.2
    let x : Binary64 := if m = Nat.pow 2 53 then ⟨Nat.pow 2 52, e + 1⟩ else ⟨m, e⟩
    if x.exponent ≤ 971 then some x else none

def mul? (x y : Binary64) : Option Binary64 :=
  let (a, b) := x.toFraction
  let (c, d) := y.toFraction
  nearest (a * c) (b * d)

/-- The quotient by a positive number, rounded. -/
def div? (x y : Binary64) : Option Binary64 :=
  let (a, b) := x.toFraction
  let (c, d) := y.toFraction
  nearest (a * d) (b * c)

end Binary64

end ChannelAgent
