import DocQuery.Number.Shortest

/-!
# DocQuery.Number

The numbers of documents: whole numbers of 64 bits, signed or unsigned, and doubles.

`Number.ofText?` reads a number only if nothing is lost: a text outside the whole numbers must
denote the very decimal that its nearest double stands for.
-/

namespace DocQuery

/-- The whole numbers a document can hold: signed or unsigned in 64 bits. -/
def WholeFits (value : Int) : Prop :=
  Int64.minValue.toInt ≤ value ∧ value < UInt64.size

instance (value : Int) : Decidable (WholeFits value) :=
  inferInstanceAs (Decidable (_ ∧ _))

/-- A whole number and a double are never the same number of a document, so `1` and `1.0`
differ. -/
inductive Number where
  | whole (value : Int) (fits : WholeFits value)
  | double (x : Binary64)
deriving DecidableEq, Repr

/-- The decimal digits of an integer, after a minus sign if it is negative. -/
def integerText (value : Int) : String :=
  (if value < 0 then "-" else "") ++ String.ofList (digitsOf value.natAbs)

/-- Doubles are written with a fraction while the first digit stands at `10 ^ -5` up to
`10 ^ 15`, and with a signed power of ten beyond. -/
def Binary64.text (x : Binary64) : String :=
  let decimal := x.shortest .toEven
  let digits := digitsOf decimal.coefficient
  let power := digits.length - 1 + decimal.exponent
  let magnitude :=
    if x.isZero then
      "0.0"
    else if 0 ≤ power ∧ power ≤ 15 then
      -- The point stands among the digits, or after them and some zeros.
      let split := power.toNat + 1
      let whole := digits.take split ++ List.replicate (split - digits.length) '0'
      let fraction := digits.drop split
      String.ofList (whole ++ '.' :: if fraction = [] then ['0'] else fraction)
    else if -5 ≤ power ∧ power < 0 then
      -- The point stands before the digits, and zeros between.
      String.ofList ("0.".toList ++ List.replicate (-power - 1).toNat '0' ++ digits)
    else
      let fraction := digits.drop 1
      String.ofList (digits.take 1 ++ if fraction = [] then [] else '.' :: fraction)
        ++ "e" ++ (if power < 0 then "" else "+") ++ integerText power
  (if x.negative then "-" else "") ++ magnitude

namespace Number

/-- A whole number if it fits. -/
def ofInt? (value : Int) : Option Number :=
  if fits : WholeFits value then some (.whole value fits) else none

def text : Number → String
  | .whole value _ => integerText value
  | .double x => x.text

def isZero : Number → Bool
  | .whole value _ => value = 0
  | .double x => x.isZero

/-- The double that denotes exactly the same decimal as the text, if there is one. -/
def doubleOfText? (text : String) : Option Binary64 := do
  let literal ← Literal.ofText? text.toList
  let x ← Binary64.ofLiteral? literal
  guard (Decimal.ofText? text = some (x.shortest .up))
  return x

/-- Read a number without changing it: as a whole number where that fits, else as a double. -/
def ofText? (text : String) : Option Number :=
  (integer? text.toList).bind ofInt? <|> (doubleOfText? text).map .double

end Number

end DocQuery
