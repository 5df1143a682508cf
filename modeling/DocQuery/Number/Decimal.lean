/-!
# DocQuery.Number.Decimal

Decimal literals and the decimals they denote.

A `Literal` is the text taken apart: sign, digits before and after the point, power of ten.
A `Decimal` is the number itself in its only canonical form: the coefficient has no zero at
its end, and zero is written in one way. Two literals denote one number exactly when their
decimals are equal.
-/

namespace DocQuery

/-- The number written by decimal digits. -/
def digitsValue (digits : List Char) : Nat :=
  Nat.ofDigitChars 10 digits 0

/-- The decimal digits of a number. -/
def digitsOf (n : Nat) : List Char :=
  Nat.toDigits 10 n

/-- Whether a text starts with a minus sign, and what stands after its sign. -/
def splitSign : List Char → Bool × List Char
  | '-' :: rest => (true, rest)
  | '+' :: rest => (false, rest)
  | text => (false, text)

/-- A sign, which may be missing, and one or more digits. -/
def integer? (text : List Char) : Option Int :=
  let (negative, digits) := splitSign text
  if digits ≠ [] ∧ digits.all Char.isDigit then
    some (if negative then -(digitsValue digits : Int) else digitsValue digits)
  else
    none

/-- A decimal literal: `whole.fraction` times ten to the power `exponent`. -/
structure Literal where
  negative : Bool
  whole : List Char
  fraction : List Char
  exponent : Int
deriving DecidableEq, Repr

namespace Literal

/-- An optional sign, digits with at most one point among them and at least one digit, and
optionally `e` or `E` with a signed integer. -/
def ofText? (text : List Char) : Option Literal :=
  let (negative, unsigned) := splitSign text
  let mantissa := unsigned.takeWhile fun c => c != 'e' && c != 'E'
  let whole := mantissa.takeWhile (· != '.')
  let fraction := (mantissa.dropWhile (· != '.')).drop 1
  -- A second point would be left in the fraction and is no digit.
  if whole ++ fraction ≠ [] ∧ (whole ++ fraction).all Char.isDigit then
    match unsigned.dropWhile fun c => c != 'e' && c != 'E' with
    | [] => some ⟨negative, whole, fraction, 0⟩
    | _ :: power => (integer? power).map fun exponent => ⟨negative, whole, fraction, exponent⟩
  else
    none

/-- All digits as one number. -/
def coefficient (l : Literal) : Nat :=
  digitsValue (l.whole ++ l.fraction)

/-- The power of ten that the coefficient is multiplied by. -/
def scale (l : Literal) : Int :=
  l.exponent - l.fraction.length

end Literal

/-- Divide by ten as long as that is exact, counting up the exponent. -/
def stripZeros (coefficient : Nat) (exponent : Int) : Nat × Int :=
  if coefficient % 10 = 0 ∧ coefficient ≠ 0 then
    stripZeros (coefficient / 10) (exponent + 1)
  else
    (coefficient, exponent)
termination_by coefficient
decreasing_by omega

theorem stripZeros_mod_ten (coefficient : Nat) (exponent : Int) (nonzero : coefficient ≠ 0) :
    (stripZeros coefficient exponent).1 % 10 ≠ 0 := by
  fun_induction stripZeros coefficient exponent with
  | case1 coefficient exponent more ih => exact ih (by omega)
  | case2 coefficient exponent done => exact fun zero => done ⟨zero, nonzero⟩

/-- A decimal number `± coefficient * 10 ^ exponent` in canonical form. -/
structure Decimal where
  negative : Bool
  coefficient : Nat
  exponent : Int
  canonical : coefficient % 10 ≠ 0 ∨ (negative = false ∧ coefficient = 0 ∧ exponent = 0)
deriving DecidableEq, Repr

namespace Decimal

def zero : Decimal := ⟨false, 0, 0, by decide⟩

/-- The decimal `± coefficient * 10 ^ exponent`. -/
def ofScaled (negative : Bool) (coefficient : Nat) (exponent : Int) : Decimal :=
  if nonzero : coefficient ≠ 0 then
    ⟨negative, (stripZeros coefficient exponent).1, (stripZeros coefficient exponent).2,
      .inl (stripZeros_mod_ten coefficient exponent nonzero)⟩
  else
    zero

/-- The number a literal denotes. -/
def ofLiteral (l : Literal) : Decimal :=
  ofScaled l.negative l.coefficient l.scale

/-- Powers of ten are written in 64 bits. -/
def ExponentFits (exponent : Int) : Prop :=
  Int64.minValue.toInt ≤ exponent ∧ exponent ≤ Int64.maxValue.toInt

instance (exponent : Int) : Decidable (ExponentFits exponent) :=
  inferInstanceAs (Decidable (_ ∧ _))

/-- The number a text denotes, if it is a decimal literal whose exponent fits. -/
def ofText? (text : String) : Option Decimal :=
  ((Literal.ofText? text.toList).filter fun l => ExponentFits l.exponent).map ofLiteral

end Decimal

end DocQuery
