import DocQuery.Number.Decimal

/-!
# DocQuery.Number.Binary64

The finite double-precision numbers and correct rounding to them, in exact arithmetic.

A value is `± significand * 2 ^ exponent` with the significand of a normal number in
`[2^52, 2^53)`. That form is unique, so equality of values is equality of structures; the two
zeros differ by their sign alone.
-/

namespace DocQuery

/-- The significand and exponent of a finite double: normal, or subnormal at the least exponent. -/
def Representable (significand : Nat) (exponent : Int) : Prop :=
  significand < Nat.pow 2 53 ∧ -1074 ≤ exponent ∧ exponent ≤ 971 ∧
    (Nat.pow 2 52 ≤ significand ∨ exponent = -1074)

instance (significand : Nat) (exponent : Int) : Decidable (Representable significand exponent) :=
  inferInstanceAs (Decidable (_ ∧ _))

/-- A finite double-precision number. -/
structure Binary64 where
  negative : Bool
  significand : Nat
  exponent : Int
  representable : Representable significand exponent
deriving DecidableEq, Repr

/-- Whether `base ^ exponent ≤ num / den`. -/
def powerAtMost (base num den : Nat) (exponent : Int) : Bool :=
  den * base.pow exponent.toNat ≤ num * base.pow (-exponent).toNat

/-- The greatest `e` with `2 ^ e ≤ num / den`, for positive `num` and `den`. -/
def log2Quotient (num den : Nat) : Int :=
  -- The logarithms of the two parts miss that of the quotient by less than one.
  let guess : Int := num.log2 - den.log2
  if powerAtMost 2 num den guess then guess else guess - 1

/-- The quotient rounded to the nearest integer, a half to the even one. -/
def divToEven (num den : Nat) : Nat :=
  let floor := num / den
  let twice := 2 * (num % den)
  if twice < den ∨ (twice = den ∧ floor % 2 = 0) then floor else floor + 1

namespace Binary64

def zero (negative : Bool) : Binary64 := ⟨negative, 0, -1074, by decide⟩

def isZero (x : Binary64) : Bool := x.significand = 0

/-- The double with this significand and exponent, if there is one. -/
def ofParts? (negative : Bool) (significand : Nat) (exponent : Int) : Option Binary64 :=
  if h : Representable significand exponent then some ⟨negative, significand, exponent, h⟩
  else none

/-- The double nearest to `± num / den`, of two the one with the even significand; `none` when
that lies beyond the greatest double. -/
def ofQuotient? (negative : Bool) (num den : Nat) : Option Binary64 :=
  let exponent := max (log2Quotient num den - 52) (-1074)
  let significand := divToEven (num * Nat.pow 2 (-exponent).toNat) (den * Nat.pow 2 exponent.toNat)
  -- Rounding up may carry into the next power of two.
  if significand = Nat.pow 2 53 then ofParts? negative (Nat.pow 2 52) (exponent + 1)
  else ofParts? negative significand exponent

/-- The double nearest to `± coefficient * 10 ^ scale`. A number whose first digit stands far
outside the range of doubles is settled by its magnitude, without writing it out. -/
def ofScaled? (negative : Bool) (coefficient : Nat) (scale : Int) : Option Binary64 :=
  let magnitude := (digitsOf coefficient).length + scale
  if coefficient = 0 ∨ magnitude < -330 then some (zero negative)
  else if magnitude > 310 then none
  else ofQuotient? negative (coefficient * Nat.pow 10 scale.toNat) (Nat.pow 10 (-scale).toNat)

/-- The double nearest to a literal, which also gives zero its sign. -/
def ofLiteral? (l : Literal) : Option Binary64 :=
  ofScaled? l.negative l.coefficient l.scale

/-- The magnitude as a quotient of whole numbers. -/
def num (x : Binary64) : Nat := x.significand * Nat.pow 2 x.exponent.toNat

def den (x : Binary64) : Nat := Nat.pow 2 (-x.exponent).toNat

end Binary64

end DocQuery
