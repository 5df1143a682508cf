import DocQuery.Number.Shortest
import Mathlib.Algebra.Order.Field.Power
import Mathlib.Data.Int.Log
import Mathlib.Data.Rat.Floor
import Mathlib.Tactic.FieldSimp
import Mathlib.Tactic.Positivity
import Mathlib.Tactic.Ring

/-!
# DocQuery.Proofs.Rounding

Rounding to doubles depends on the rounded number alone, and keeps a number that is a double.

A number is given as a quotient or with a power of ten; neither is unique. Both are compared as
rational numbers.

## Main results

`Binary64.ofQuotient?_congr`: equal quotients are rounded alike.
`Binary64.ofScaled?_mul_pow`: so are equal decimals.
`Binary64.ofScaled?_of_value`: a decimal that is exactly a double is rounded to it.
-/

namespace DocQuery

/-! ### Digits -/

theorem tenPow_pos (power : Nat) : 0 < Nat.pow 10 power :=
  Nat.pow_pos (by decide)

theorem length_digitsOf_pos (n : Nat) : 0 < (digitsOf n).length :=
  Nat.length_toDigits_pos

/-- The first digit of a number stands between two powers of ten. -/
theorem length_digitsOf_bounds {coefficient : Nat} (nonzero : coefficient ≠ 0) :
    10 ^ ((digitsOf coefficient).length - 1) ≤ coefficient ∧
      coefficient < 10 ^ (digitsOf coefficient).length := by
  have positive := length_digitsOf_pos coefficient
  refine ⟨?_, (Nat.length_toDigits_le_iff (by decide) positive).mp le_rfl⟩
  by_cases one : (digitsOf coefficient).length = 1
  · rw [one]
    exact Nat.pos_of_ne_zero nonzero
  · apply Nat.le_of_not_lt
    intro less
    have fewer : (digitsOf coefficient).length ≤ (digitsOf coefficient).length - 1 :=
      (Nat.length_toDigits_le_iff (by decide) (by omega)).mpr less
    omega

/-- A factor of ten is a zero behind the digits. -/
theorem digitsOf_mul_pow {coefficient : Nat} (nonzero : coefficient ≠ 0) (more : Nat) :
    digitsOf (coefficient * 10 ^ more) = digitsOf coefficient ++ List.replicate more '0' := by
  induction more with
  | zero => simp
  | succ more ih =>
    have positive : 0 < coefficient * 10 ^ more := by positivity
    have last : digitsOf (coefficient * 10 ^ (more + 1)) =
        digitsOf (coefficient * 10 ^ more) ++ digitsOf 0 := by
      rw [digitsOf, digitsOf, digitsOf, Nat.toDigits_append_toDigits (by decide) positive
        (by decide), Nat.pow_succ]
      congr 1
      ring
    rw [last, ih, List.append_assoc, List.replicate_succ']
    rfl

theorem length_digitsOf_mul_pow {coefficient : Nat} (nonzero : coefficient ≠ 0) (more : Nat) :
    (digitsOf (coefficient * 10 ^ more)).length = (digitsOf coefficient).length + more := by
  rw [digitsOf_mul_pow nonzero, List.length_append, List.length_replicate]

/-! ### Powers and logarithms -/

/-- A power as a quotient of whole numbers. -/
theorem zpow_eq_div {base : ℚ} (nonzero : base ≠ 0) (exponent : ℤ) :
    base ^ exponent = base ^ exponent.toNat / base ^ (-exponent).toNat := by
  rw [← zpow_natCast, ← zpow_natCast, ← zpow_sub₀ nonzero]
  congr 1
  omega

section Quotients

variable {num den : Nat}

theorem powerAtMost_iff {base : Nat} {exponent : ℤ} (basePos : 0 < base) (denPos : 0 < den) :
    powerAtMost base num den exponent = true ↔ (base : ℚ) ^ exponent ≤ (num : ℚ) / den := by
  have basePos' : (0 : ℚ) < base := by exact_mod_cast basePos
  have denPos' : (0 : ℚ) < den := by exact_mod_cast denPos
  rw [zpow_eq_div basePos'.ne', div_le_div_iff₀ (by positivity) denPos', powerAtMost,
    decide_eq_true_iff, Nat.pow_eq, Nat.pow_eq, mul_comm den]
  exact_mod_cast Iff.rfl

theorem log2Quotient_eq (numPos : 0 < num) (denPos : 0 < den) :
    log2Quotient num den = Int.log 2 ((num : ℚ) / den) := by
  have denPos' : (0 : ℚ) < den := by exact_mod_cast denPos
  have quotientPos : (0 : ℚ) < num / den := by positivity
  have numLow : (2 : ℚ) ^ num.log2 ≤ num := by exact_mod_cast Nat.log2_self_le numPos.ne'
  have numHigh : (num : ℚ) < 2 ^ (num.log2 + 1) := by exact_mod_cast Nat.lt_log2_self
  have denLow : (2 : ℚ) ^ den.log2 ≤ den := by exact_mod_cast Nat.log2_self_le denPos.ne'
  have denHigh : (den : ℚ) < 2 ^ (den.log2 + 1) := by exact_mod_cast Nat.lt_log2_self
  have low : (num.log2 : ℤ) - den.log2 - 1 ≤ Int.log 2 ((num : ℚ) / den) := by
    rw [← Int.zpow_le_iff_le_log one_lt_two quotientPos]
    calc ((2 : ℕ) : ℚ) ^ ((num.log2 : ℤ) - den.log2 - 1)
        = 2 ^ ((num.log2 : ℤ) - ((den.log2 + 1 : ℕ) : ℤ)) := by
          rw [Nat.cast_ofNat, Nat.cast_succ, sub_sub]
      _ = 2 ^ num.log2 / 2 ^ (den.log2 + 1) := by
          rw [zpow_sub₀ two_ne_zero, zpow_natCast, zpow_natCast]
      _ ≤ num / den := by gcongr
  have high : Int.log 2 ((num : ℚ) / den) < (num.log2 : ℤ) - den.log2 + 1 := by
    rw [← Int.lt_zpow_iff_log_lt one_lt_two quotientPos]
    calc (num : ℚ) / den
        < 2 ^ (num.log2 + 1) / 2 ^ den.log2 := by gcongr
      _ = 2 ^ (((num.log2 + 1 : ℕ) : ℤ) - den.log2) := by
          rw [zpow_sub₀ two_ne_zero, zpow_natCast, zpow_natCast]
      _ = ((2 : ℕ) : ℚ) ^ ((num.log2 : ℤ) - den.log2 + 1) := by
          rw [Nat.cast_ofNat, Nat.cast_succ, add_sub_right_comm]
  have guess : powerAtMost 2 num den (num.log2 - den.log2) = true ↔
      (num.log2 : ℤ) - den.log2 ≤ Int.log 2 ((num : ℚ) / den) := by
    rw [powerAtMost_iff two_pos denPos, Int.zpow_le_iff_le_log one_lt_two quotientPos]
  rw [log2Quotient]
  split
  next holds =>
    have := guess.mp holds
    omega
  next fails =>
    have := mt guess.mpr fails
    omega

/-! ### Rounding a quotient -/

theorem divToEven_mul_right {factor : Nat} (factorPos : 0 < factor) :
    divToEven (num * factor) (den * factor) = divToEven num den := by
  have double : 2 * (num % den * factor) = 2 * (num % den) * factor := (Nat.mul_assoc ..).symm
  simp only [divToEven, Nat.mul_div_mul_right _ _ factorPos, Nat.mul_mod_mul_right, double,
    Nat.mul_lt_mul_right factorPos, Nat.mul_left_inj factorPos.ne']

theorem divToEven_congr {num' den' : Nat} (denPos : 0 < den) (denPos' : 0 < den')
    (same : num * den' = num' * den) : divToEven num den = divToEven num' den' :=
  calc divToEven num den
      = divToEven (num * den') (den * den') := (divToEven_mul_right denPos').symm
    _ = divToEven (num' * den) (den' * den) := by rw [same, Nat.mul_comm den]
    _ = divToEven num' den' := divToEven_mul_right denPos

theorem divToEven_mul_self (denPos : 0 < den) : divToEven (num * den) den = num := by
  rw [divToEven, Nat.mul_mod_left, Nat.mul_div_cancel _ denPos]
  exact if_pos (.inl denPos)

end Quotients

namespace Binary64

theorem ofQuotient?_congr {negative : Bool} {num den num' den' : Nat} (numPos : 0 < num)
    (denPos : 0 < den) (denPos' : 0 < den') (same : num * den' = num' * den) :
    ofQuotient? negative num den = ofQuotient? negative num' den' := by
  have numPos' : 0 < num' := Nat.pos_of_mul_pos_right (same ▸ Nat.mul_pos numPos denPos')
  have sameLog : log2Quotient num den = log2Quotient num' den' := by
    rw [log2Quotient_eq numPos denPos, log2Quotient_eq numPos' denPos']
    congr 1
    rw [div_eq_div_iff (by positivity) (by positivity)]
    exact_mod_cast same
  have sameSignificand (up down : Nat) :
      divToEven (num * Nat.pow 2 up) (den * Nat.pow 2 down) =
        divToEven (num' * Nat.pow 2 up) (den' * Nat.pow 2 down) := by
    apply divToEven_congr (Nat.mul_pos denPos (Nat.two_pow_pos _))
      (Nat.mul_pos denPos' (Nat.two_pow_pos _))
    rw [Nat.mul_mul_mul_comm, same, Nat.mul_mul_mul_comm]
  rw [ofQuotient?, ofQuotient?, sameLog]
  simp only [sameSignificand]

/-! ### The value of a double -/

variable {x : Binary64}

/-- The magnitude of a double. -/
def value (x : Binary64) : ℚ := x.significand * 2 ^ x.exponent

theorem den_pos (x : Binary64) : 0 < x.den := Nat.two_pow_pos _

theorem num_div_den (x : Binary64) : (x.num : ℚ) / x.den = x.value := by
  rw [num, den, value, zpow_eq_div two_ne_zero, Nat.pow_eq, Nat.pow_eq]
  push_cast
  ring

theorem significand_pos (nonzero : x.isZero = false) : 0 < x.significand := by
  rw [isZero, decide_eq_false_iff_not] at nonzero
  omega

theorem num_pos (nonzero : x.isZero = false) : 0 < x.num :=
  Nat.mul_pos (significand_pos nonzero) (Nat.two_pow_pos _)

theorem value_pos (nonzero : x.isZero = false) : 0 < x.value := by
  have : 0 < x.significand := significand_pos nonzero
  rw [value]
  positivity

theorem value_lt (x : Binary64) : x.value < 2 ^ (1024 : ℤ) := by
  obtain ⟨less, -, atMost, -⟩ := x.representable
  have less' : (x.significand : ℚ) < 2 ^ (53 : ℤ) := by exact_mod_cast less
  calc x.value
      < 2 ^ (53 : ℤ) * 2 ^ x.exponent := by rw [value]; gcongr
    _ = 2 ^ (53 + x.exponent) := (zpow_add₀ two_ne_zero _ _).symm
    _ ≤ 2 ^ (1024 : ℤ) := zpow_le_zpow_right₀ one_le_two (by omega)

theorem le_value (nonzero : x.isZero = false) : 2 ^ (-1074 : ℤ) ≤ x.value := by
  have atLeast : (1 : ℚ) ≤ x.significand := by exact_mod_cast significand_pos nonzero
  calc (2 : ℚ) ^ (-1074 : ℤ)
      ≤ 2 ^ x.exponent := zpow_le_zpow_right₀ one_le_two x.representable.2.1
    _ ≤ x.significand * 2 ^ x.exponent := le_mul_of_one_le_left (by positivity) atLeast

/-- The exponent of a double is that of the unit its value is rounded to. -/
theorem max_log_value (nonzero : x.isZero = false) :
    max (Int.log 2 x.value - 52) (-1074) = x.exponent := by
  obtain ⟨less, atLeast, -, normal⟩ := x.representable
  have positive := value_pos nonzero
  have high : Int.log 2 x.value < 53 + x.exponent := by
    rw [← Int.lt_zpow_iff_log_lt one_lt_two positive, Nat.cast_ofNat, zpow_add₀ two_ne_zero, value]
    gcongr
    exact_mod_cast less
  rcases normal with normal | least
  · have low : 52 + x.exponent ≤ Int.log 2 x.value := by
      rw [← Int.zpow_le_iff_le_log one_lt_two positive, Nat.cast_ofNat, zpow_add₀ two_ne_zero,
        value]
      gcongr
      exact_mod_cast normal
    omega
  · omega

/-- A double is rounded to itself. -/
theorem ofQuotient?_num_den (nonzero : x.isZero = false) :
    ofQuotient? x.negative x.num x.den = some x := by
  have exponent : max (log2Quotient x.num x.den - 52) (-1074) = x.exponent := by
    rw [log2Quotient_eq (num_pos nonzero) x.den_pos, num_div_den, max_log_value nonzero]
  have significand : divToEven (x.num * Nat.pow 2 (-x.exponent).toNat)
      (x.den * Nat.pow 2 x.exponent.toNat) = x.significand := by
    have units : x.num * Nat.pow 2 (-x.exponent).toNat =
        x.significand * (x.den * Nat.pow 2 x.exponent.toNat) := by
      rw [num, den, Nat.mul_assoc, Nat.mul_comm (Nat.pow 2 x.exponent.toNat)]
    rw [units]
    exact divToEven_mul_self (Nat.mul_pos x.den_pos (Nat.two_pow_pos _))
  rw [ofQuotient?]
  simp only [exponent, significand]
  rw [if_neg x.representable.1.ne, ofParts?, dif_pos x.representable]

/-! ### Rounding a decimal -/

section Decimals

variable {negative : Bool} {coefficient : Nat} {scale : ℤ}

/-- The quotient that a decimal is rounded as. -/
theorem quotient_of_scale : ((coefficient * Nat.pow 10 scale.toNat : Nat) : ℚ) /
    (Nat.pow 10 (-scale).toNat : Nat) = coefficient * 10 ^ scale := by
  rw [zpow_eq_div (by norm_num), Nat.pow_eq, Nat.pow_eq]
  push_cast
  rw [mul_div_assoc]

/-- A decimal is less than the power of ten before its first digit. -/
theorem lt_magnitude (nonzero : coefficient ≠ 0) : (coefficient : ℚ) * 10 ^ scale <
    10 ^ (((digitsOf coefficient).length : ℤ) + scale) := by
  have digits : (coefficient : ℚ) < 10 ^ ((digitsOf coefficient).length : ℤ) := by
    exact_mod_cast (length_digitsOf_bounds nonzero).2
  rw [zpow_add₀ (by norm_num)]
  gcongr

/-- A decimal is at least the power of ten that its first digit counts. -/
theorem magnitude_le (nonzero : coefficient ≠ 0) :
    (10 : ℚ) ^ (((digitsOf coefficient).length : ℤ) + scale - 1) ≤ coefficient * 10 ^ scale := by
  have positive := length_digitsOf_pos coefficient
  have digits : (10 : ℚ) ^ (((digitsOf coefficient).length - 1 : ℕ) : ℤ) ≤ coefficient := by
    exact_mod_cast (length_digitsOf_bounds nonzero).1
  calc (10 : ℚ) ^ (((digitsOf coefficient).length : ℤ) + scale - 1)
      = 10 ^ (((digitsOf coefficient).length - 1 : ℕ) : ℤ) * 10 ^ scale := by
        rw [← zpow_add₀ (by norm_num)]
        congr 1
        omega
    _ ≤ coefficient * 10 ^ scale := by gcongr

/-- Zeros at the end of the coefficient count as powers of ten. -/
theorem ofScaled?_mul_pow (more : Nat) : ofScaled? negative (coefficient * 10 ^ more) scale =
    ofScaled? negative coefficient (scale + more) := by
  by_cases zero : coefficient = 0
  · simp [ofScaled?, zero]
  have nonzero : coefficient * 10 ^ more ≠ 0 := by positivity
  have magnitude : ((digitsOf (coefficient * 10 ^ more)).length : ℤ) + scale =
      (digitsOf coefficient).length + (scale + more) := by
    rw [length_digitsOf_mul_pow zero]
    omega
  have sameQuotient : ofQuotient? negative (coefficient * 10 ^ more * Nat.pow 10 scale.toNat)
      (Nat.pow 10 (-scale).toNat) =
        ofQuotient? negative (coefficient * Nat.pow 10 (scale + more).toNat)
          (Nat.pow 10 (-(scale + more)).toNat) := by
    apply ofQuotient?_congr (Nat.mul_pos (Nat.pos_of_ne_zero nonzero) (tenPow_pos _))
      (tenPow_pos _) (tenPow_pos _)
    have powers : more + scale.toNat + (-(scale + more)).toNat =
        (scale + more).toNat + (-scale).toNat := by omega
    calc coefficient * 10 ^ more * 10 ^ scale.toNat * 10 ^ (-(scale + more)).toNat
        = coefficient * 10 ^ (more + scale.toNat + (-(scale + more)).toNat) := by ring
      _ = coefficient * 10 ^ (scale + more).toNat * 10 ^ (-scale).toNat := by
        rw [powers]
        ring
  simp only [ofScaled?, magnitude, sameQuotient, zero, nonzero]

/-- A decimal that is rounded to a double other than zero is not far outside their range. -/
theorem magnitude_of_ofScaled? {x : Binary64} (nonzero : x.isZero = false)
    (rounded : ofScaled? x.negative coefficient scale = some x) : coefficient ≠ 0 ∧
      -330 ≤ (digitsOf coefficient).length + scale ∧
      (digitsOf coefficient).length + scale ≤ 310 := by
  simp only [ofScaled?] at rounded
  split at rounded
  next =>
    have isZero : Binary64.isZero (zero x.negative) = x.isZero :=
      congrArg Binary64.isZero (Option.some.inj rounded)
    rw [nonzero] at isZero
    cases isZero
  next inside =>
    split at rounded
    next => cases rounded
    next below =>
      rw [not_or, not_lt] at inside
      exact ⟨inside.1, inside.2, not_lt.mp below⟩

section Exact

variable {x : Binary64} (nonzero : x.isZero = false)
  (exact : (coefficient : ℚ) * 10 ^ scale = x.value)

include nonzero exact

theorem coefficient_ne_zero_of_value : coefficient ≠ 0 := by
  rintro rfl
  have positive := value_pos nonzero
  rw [← exact, Nat.cast_zero, zero_mul] at positive
  exact lt_irrefl _ positive

/-- The first digit of a double is within the thresholds of the rounding. -/
theorem le_magnitude_of_value : -330 ≤ (digitsOf coefficient).length + scale := by
  have tooSmall : (10 : ℚ) ^ (-330 : ℤ) < 2 ^ (-1074 : ℤ) := by
    rw [zpow_neg, zpow_neg]
    apply inv_strictAnti₀ (by positivity)
    exact_mod_cast (by decide +kernel : 2 ^ 1074 < 10 ^ 330)
  by_contra below
  have less : x.value < 10 ^ (-330 : ℤ) := calc
    x.value < 10 ^ (((digitsOf coefficient).length : ℤ) + scale) :=
      exact ▸ lt_magnitude (coefficient_ne_zero_of_value nonzero exact)
    _ ≤ 10 ^ (-330 : ℤ) := zpow_le_zpow_right₀ (by norm_num) (by omega)
  exact absurd (le_value nonzero) (less.trans tooSmall).not_ge

theorem magnitude_le_of_value : (digitsOf coefficient).length + scale ≤ 310 := by
  have tooLarge : (2 : ℚ) ^ (1024 : ℤ) < 10 ^ (310 : ℤ) := by
    exact_mod_cast (by decide +kernel : 2 ^ 1024 < 10 ^ 310)
  by_contra above
  have atLeast : (10 : ℚ) ^ (310 : ℤ) ≤ x.value := calc
    (10 : ℚ) ^ (310 : ℤ) ≤ 10 ^ (((digitsOf coefficient).length : ℤ) + scale - 1) :=
      zpow_le_zpow_right₀ (by norm_num) (by omega)
    _ ≤ x.value := exact ▸ magnitude_le (coefficient_ne_zero_of_value nonzero exact)
  exact absurd x.value_lt (tooLarge.trans_le atLeast).not_gt

/-- A decimal that is exactly a double is rounded to it. -/
theorem ofScaled?_of_value : ofScaled? x.negative coefficient scale = some x := by
  have coefficientNe := coefficient_ne_zero_of_value nonzero exact
  have notBelow := (le_magnitude_of_value nonzero exact).not_gt
  have notAbove := (magnitude_le_of_value nonzero exact).not_gt
  have sameQuotient : coefficient * Nat.pow 10 scale.toNat * x.den =
      x.num * Nat.pow 10 (-scale).toNat := by
    have tenPos : (0 : ℚ) < (Nat.pow 10 (-scale).toNat : Nat) := by exact_mod_cast tenPow_pos _
    have denPos : (0 : ℚ) < x.den := by exact_mod_cast x.den_pos
    have quotients := (quotient_of_scale.trans exact).trans (num_div_den x).symm
    rw [div_eq_div_iff tenPos.ne' denPos.ne'] at quotients
    exact_mod_cast quotients
  have positive : 0 < coefficient * Nat.pow 10 scale.toNat :=
    Nat.mul_pos (Nat.pos_of_ne_zero coefficientNe) (tenPow_pos _)
  rw [ofScaled?, if_neg (not_or.mpr ⟨coefficientNe, notBelow⟩), if_neg notAbove,
    ofQuotient?_congr positive (tenPow_pos _) x.den_pos sameQuotient, ofQuotient?_num_den nonzero]

end Exact

end Decimals

end Binary64

end DocQuery
