import DocQuery.Number.Binary64

/-!
# DocQuery.Number.Shortest

The decimal with the fewest digits that reads back as a given double.

For one digit, two digits and so on, the two neighbours of the value on that decimal grid are
tried; the first grid with a neighbour that reads back wins, of two such neighbours the nearer.
Reading back is `Binary64.ofScaled?` itself. Should no grid up to seventeen digits do, the
value is written out in full.
-/

namespace DocQuery

/-- Which of two equally near neighbours is taken. -/
inductive Tie where
  | toEven
  | up
deriving DecidableEq, Repr

namespace Binary64

/-- The greatest `e` with `10 ^ e` at most the magnitude of a nonzero value. -/
def log10 (x : Binary64) : Int :=
  let guess : Int := (digitsOf x.num).length - (digitsOf x.den).length
  if powerAtMost 10 x.num x.den guess then guess else guess - 1

/-- Whether `coefficient * 10 ^ scale`, with the sign of `x`, reads back as `x`. -/
def isReadFrom (x : Binary64) (coefficient : Nat) (scale : Int) : Bool :=
  ofScaled? x.negative coefficient scale = some x

/-- The better neighbour of `x` among the multiples of `10 ^ scale`, if one reads back. -/
def onGrid? (tie : Tie) (x : Binary64) (scale : Int) : Option Decimal :=
  let num := x.num * Nat.pow 10 (-scale).toNat
  let den := x.den * Nat.pow 10 scale.toNat
  let below := num / den
  -- Twice what is left over, against one step of the grid: the nearer neighbour.
  let twice := 2 * (num % den)
  let upper := twice > den ∨ (twice = den ∧ (tie = .up ∨ below % 2 = 1))
  match x.isReadFrom below scale, x.isReadFrom (below + 1) scale with
  | true, true => some (.ofScaled x.negative (if upper then below + 1 else below) scale)
  | true, false => some (.ofScaled x.negative below scale)
  | false, true => some (.ofScaled x.negative (below + 1) scale)
  | false, false => none

/-- All digits of the value. -/
def exactDecimal (x : Binary64) : Decimal :=
  .ofScaled x.negative (x.num * Nat.pow 5 (-x.exponent).toNat) (min x.exponent 0)

/-- The shortest decimal that reads back, nearest to the value among those. -/
def shortest (tie : Tie) (x : Binary64) : Decimal :=
  if x.isZero then
    .zero
  else
    ((List.range 17).findSome? fun (more : Nat) => x.onGrid? tie (x.log10 - more)).getD
      x.exactDecimal

end Binary64

end DocQuery
