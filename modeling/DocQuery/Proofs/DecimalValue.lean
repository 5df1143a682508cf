import DocQuery.Proofs.NumberText

/-!
# DocQuery.Proofs.DecimalValue

The rational numbers that literals, decimals and the texts of numbers denote.

A decimal is the canonical form of what it denotes: equal values have equal decimals. With that a
question about two texts becomes one about two rational numbers.

## Main results

`Decimal.value_injective`: a decimal is determined by its value.
`Denotes.unique`: a text denotes one number at most.
`Number.denotes_text`: the text of a number denotes its value.
`Number.text_injective`: different numbers have different texts.
`Number.areApart_of_value_eq`: different numbers of one value are a whole number and a double, or the
two zeros.
-/

namespace DocQuery

/-! ### Values -/

/-- The number `± coefficient * 10 ^ exponent`. -/
def scaledValue (negative : Bool) (coefficient : Nat) (exponent : ℤ) : ℚ :=
  (if negative then -1 else 1) * (coefficient * 10 ^ exponent)

def Literal.value (l : Literal) : ℚ := scaledValue l.negative l.coefficient l.scale

def Decimal.value (d : Decimal) : ℚ := scaledValue d.negative d.coefficient d.exponent

/-- Whether a text is a decimal literal for a number. -/
def Denotes (text : String) (q : ℚ) : Prop :=
  ∃ l : Literal, l.Spells text.toList ∧ l.value = q

section Scaled

variable {negative negative' : Bool} {coefficient coefficient' : Nat} {exponent exponent' : ℤ}

theorem scaledValue_mul_pow (more : Nat) :
    scaledValue negative (coefficient * 10 ^ more) exponent =
      scaledValue negative coefficient (exponent + more) := by
  rw [scaledValue, scaledValue, zpow_add₀ (by norm_num), zpow_natCast]
  push_cast
  ring

theorem abs_scaledValue :
    |scaledValue negative coefficient exponent| = coefficient * 10 ^ exponent := by
  have magnitude : (0 : ℚ) ≤ coefficient * 10 ^ exponent := by positivity
  rw [scaledValue, abs_mul, abs_of_nonneg magnitude]
  cases negative <;> simp

theorem scaledValue_eq_zero_iff :
    scaledValue negative coefficient exponent = 0 ↔ coefficient = 0 := by
  have tens : (10 : ℚ) ^ exponent ≠ 0 := by positivity
  rw [← abs_eq_zero, abs_scaledValue, mul_eq_zero, Nat.cast_eq_zero, or_iff_left tens]

/-- The sign of a number other than zero can be told from it. -/
theorem scaledValue_neg_iff (exponent : ℤ) (nonzero : coefficient ≠ 0) :
    scaledValue negative coefficient exponent < 0 ↔ negative = true := by
  have positive : (0 : ℚ) < coefficient * 10 ^ exponent := by positivity
  rw [scaledValue]
  cases negative with
  | true => simpa using positive
  | false => simpa using positive.le

namespace Decimal

theorem value_ofScaled (negative : Bool) (coefficient : Nat) (exponent : ℤ) :
    (ofScaled negative coefficient exponent).value =
      scaledValue negative coefficient exponent := by
  by_cases zero : coefficient = 0
  · rw [ofScaled, dif_neg (not_not.mpr zero), value, scaledValue_eq_zero_iff.mpr zero]
    exact scaledValue_eq_zero_iff.mpr rfl
  · obtain ⟨more, sign, digits, raised⟩ := ofScaled_spec zero negative exponent
    rw [value, sign, raised]
    conv_rhs => rw [digits]
    rw [scaledValue_mul_pow]

/-- One of two numbers of one value has the other's digits and zeros behind them. -/
theorem ofScaled_eq_of_le (nonzero : coefficient' ≠ 0)
    (same : (coefficient : ℚ) * 10 ^ exponent = coefficient' * 10 ^ exponent')
    (le : exponent ≤ exponent') :
    ofScaled negative coefficient exponent = ofScaled negative coefficient' exponent' := by
  obtain ⟨more, rfl⟩ := Int.le.dest le
  have tens : (10 : ℚ) ^ exponent ≠ 0 := by positivity
  have digits : coefficient = coefficient' * 10 ^ more := by
    rw [zpow_add₀ (by norm_num), mul_left_comm, mul_comm, mul_right_inj' tens,
      zpow_natCast] at same
    exact_mod_cast same
  rw [digits, ofScaled_mul_pow nonzero]

/-- A decimal depends on the value alone. -/
theorem ofScaled_congr (same : scaledValue negative coefficient exponent =
      scaledValue negative' coefficient' exponent') :
    ofScaled negative coefficient exponent = ofScaled negative' coefficient' exponent' := by
  -- All zeros are written in one way.
  have zeros : coefficient = 0 ↔ coefficient' = 0 := by
    rw [← scaledValue_eq_zero_iff, same, scaledValue_eq_zero_iff]
  by_cases zero : coefficient = 0
  · simp only [ofScaled, zero, zeros.mp zero, ne_eq, not_true_eq_false, dite_false]
  have nonzero' := mt zeros.mpr zero
  have signs : negative = negative' := by
    rw [Bool.eq_iff_iff, ← scaledValue_neg_iff exponent zero, same,
      scaledValue_neg_iff exponent' nonzero']
  have magnitudes := congrArg abs same
  rw [abs_scaledValue, abs_scaledValue] at magnitudes
  rw [signs]
  -- The one with the smaller exponent has zeros at the end instead.
  rcases le_total exponent exponent' with le | ge
  · exact ofScaled_eq_of_le nonzero' magnitudes le
  · exact (ofScaled_eq_of_le zero magnitudes.symm ge).symm

/-- A decimal is in canonical form already. -/
theorem ofScaled_parts (d : Decimal) : ofScaled d.negative d.coefficient d.exponent = d := by
  by_cases zero : d.coefficient = 0
  · obtain ⟨negative, coefficient, exponent, canonical⟩ := d
    dsimp only at zero
    subst zero
    obtain ⟨rfl, -, rfl⟩ := canonical.resolve_left (by simp)
    rfl
  · exact ofScaled_self d zero

theorem value_injective : Function.Injective value := by
  intro d d' same
  rw [← ofScaled_parts d, ← ofScaled_parts d']
  exact ofScaled_congr same

theorem value_ofLiteral (l : Literal) : (ofLiteral l).value = l.value :=
  value_ofScaled _ _ _

end Decimal

end Scaled

/-! ### Texts -/

/-- A text denotes one number at most. -/
theorem Denotes.unique {text : String} {q r : ℚ} (left : Denotes text q) (right : Denotes text r) :
    q = r := by
  obtain ⟨l, spells, rfl⟩ := left
  obtain ⟨m, spells', rfl⟩ := right
  rw [← Literal.ofText?_eq_some_iff] at spells spells'
  rw [Option.some.inj (spells.symm.trans spells')]

theorem Decimal.denotes_of_ofText? {text : String} {d : Decimal} (read : ofText? text = some d) :
    Denotes text d.value := by
  obtain ⟨l, filtered, rfl⟩ := Option.map_eq_some_iff.mp read
  exact ⟨l, Literal.ofText?_eq_some_iff.mp (Option.filter_eq_some_iff.mp filtered).1,
    (value_ofLiteral l).symm⟩

/-- An integer is a literal without a power of ten. -/
theorem IsInteger.spells {text : List Char} {value : ℤ} (isInteger : IsInteger text value) :
    ∃ l : Literal, l.Spells text ∧ l.exponent = 0 ∧ l.value = value := by
  cases isInteger with
  | @mk sign digits negative signed nonempty areDigits =>
    refine ⟨⟨negative, digits, [], 0⟩, ?_, rfl, ?_⟩
    · have spells := Literal.Spells.mk (l := ⟨negative, digits, [], 0⟩) signed
        (.plain nonempty areDigits) .missing
      rwa [List.append_nil] at spells
    · rw [Literal.value, scaledValue, Literal.coefficient, Literal.scale]
      cases negative <;> simp

theorem IsInteger.denotes {text : String} {value : ℤ} (isInteger : IsInteger text.toList value) :
    Denotes text value := by
  obtain ⟨l, spells, -, isValue⟩ := isInteger.spells
  exact ⟨l, spells, isValue⟩

/-! ### Numbers -/

namespace Number

/-- The number that is written for a number of a document. -/
def value : Number → ℚ
  | .whole value _ => value
  | .double x => (x.shortest .toEven).value

/-- The text of a number is read as the canonical form of its value. -/
theorem decimal_text (n : Number) : ∃ d, Decimal.ofText? n.text = some d ∧ d.value = n.value := by
  cases n with
  | whole value fits =>
    obtain ⟨l, spells, plain, isValue⟩ := (isInteger_integerText value).spells
    refine ⟨.ofLiteral l, ?_, (Decimal.value_ofLiteral l).trans isValue⟩
    have zeroFits : Decimal.ExponentFits 0 := by decide
    rw [text, Decimal.ofText?, Literal.ofText?_eq_some_iff.mpr spells, Option.filter_some,
      if_pos (decide_eq_true (plain ▸ zeroFits)), Option.map_some]
  | double x => exact ⟨_, x.ofText?_text, rfl⟩

theorem denotes_text (n : Number) : Denotes n.text n.value := by
  obtain ⟨d, read, same⟩ := n.decimal_text
  exact same ▸ Decimal.denotes_of_ofText? read

/-- A number can be told from its text, settled or not. -/
theorem text_injective : Function.Injective text := by
  intro n m same
  -- The text of a whole number is an integer, that of a double is not.
  have sameInteger := congrArg (fun text : String => integer? text.toList) same
  cases n with
  | whole value fits =>
    cases m with
    | whole value' fits' =>
      simp only [text, integer?_integerText, Option.some.injEq] at sameInteger
      subst sameInteger
      rfl
    | double y =>
      simp only [text, integer?_integerText, Binary64.integer?_text, reduceCtorEq] at sameInteger
  | double x =>
    cases m with
    | whole value' fits' =>
      simp only [text, integer?_integerText, Binary64.integer?_text, reduceCtorEq] at sameInteger
    | double y =>
      have sameDouble : some x = some y := by
        rw [← x.ofLiteral?_text, ← y.ofLiteral?_text, show x.text = y.text from same]
      rw [Option.some.inj sameDouble]

end Number

namespace Binary64

variable {x y : Binary64}

theorem isZero_iff_coefficient_shortest (tie : Tie) :
    x.isZero = true ↔ (x.shortest tie).coefficient = 0 := by
  constructor
  · intro isZero
    rw [shortest, if_pos isZero]
    rfl
  · intro zero
    by_contra nonzero
    exact (ofScaled?_shortest tie (Bool.eq_false_iff.mpr nonzero)).2.1 zero

/-- A double other than zero can be told from its shortest decimal. -/
theorem eq_of_shortest_eq {tie : Tie} (nonzero : x.isZero = false)
    (same : x.shortest tie = y.shortest tie) : x = y := by
  have nonzero' : y.isZero = false := by
    rw [← Bool.not_eq_true, isZero_iff_coefficient_shortest tie, ← same,
      ← isZero_iff_coefficient_shortest tie, nonzero]
    exact Bool.false_ne_true
  obtain ⟨sign, -, reads⟩ := ofScaled?_shortest tie nonzero
  obtain ⟨sign', -, reads'⟩ := ofScaled?_shortest tie nonzero'
  rw [same, ← sign, same, sign', reads'] at reads
  exact (Option.some.inj reads).symm

end Binary64

namespace Number

/-- Whether two numbers are a whole number and a double, or two zeros of different sign. -/
def AreApart : Number → Number → Prop
  | .whole _ _, .double _ => True
  | .double _, .whole _ _ => True
  | .double x, .double y => x.isZero = true ∧ y.isZero = true ∧ x.negative ≠ y.negative
  | .whole _ _, .whole _ _ => False

theorem AreApart.ne {n m : Number} (apart : AreApart n m) : n ≠ m := by
  rintro rfl
  cases n with
  | whole => exact apart
  | double x => exact apart.2.2 rfl

/-- Different numbers of one value are a whole number and a double, or the two zeros. -/
theorem areApart_of_value_eq {n m : Number} (same : n.value = m.value) (different : n ≠ m) :
    AreApart n m := by
  cases n with
  | whole value fits =>
    cases m with
    | whole value' fits' =>
      obtain rfl : value = value' := Int.cast_injective same
      exact different rfl
    | double y => trivial
  | double x =>
    cases m with
    | whole value' fits' => trivial
    | double y =>
      have decimals : x.shortest .toEven = y.shortest .toEven := Decimal.value_injective same
      cases isZero : x.isZero with
      | false => exact absurd (congrArg double (Binary64.eq_of_shortest_eq isZero decimals)) different
      | true =>
        have isZero' : y.isZero = true := by
          rwa [Binary64.isZero_iff_coefficient_shortest .toEven, ← decimals,
            ← Binary64.isZero_iff_coefficient_shortest]
        refine ⟨isZero, isZero', fun sameSign => different ?_⟩
        rw [Binary64.eq_zero isZero, Binary64.eq_zero isZero', sameSign]

end Number

end DocQuery
