import DocQuery.Proofs.Rounding

/-!
# DocQuery.Proofs.RoundingRange

Which numbers are in the range of the doubles.

Rounding fails from halfway between the greatest double and the next power of two on, and gives zero
up to halfway between zero and the least double. Both are ties, and both go to the even side.

## Main results

`divToEven_spec`: a quotient is rounded to a nearest integer, of two to the even one.
`Binary64.ofScaled?_eq_none_iff`: which decimals are too large.
`Binary64.ofScaled?_isZero_iff`: which decimals are rounded to zero.
-/

namespace DocQuery

/-! ### Nearest integers -/

section Quotients

variable {num den bound : Nat}

/-- Rounded to a nearest integer, and to none of two equally near ones that is odd. -/
theorem divToEven_spec (num : Nat) (denPos : 0 < den) :
    |(divToEven num den : ℚ) - num / den| ≤ 1 / 2 ∧
      (divToEven num den % 2 = 1 → |(divToEven num den : ℚ) - num / den| < 1 / 2) := by
  have denPos' : (0 : ℚ) < den := by exact_mod_cast denPos
  obtain ⟨floor, isFloor⟩ : ∃ floor, num / den = floor := ⟨_, rfl⟩
  obtain ⟨rest, isRest⟩ : ∃ rest, num % den = rest := ⟨_, rfl⟩
  have whole : (num : ℚ) = floor * den + rest := by
    rw [← isFloor, ← isRest]
    exact_mod_cast (Nat.div_add_mod' num den).symm
  have parts : (num : ℚ) / den = floor + rest / den := by
    rw [whole, add_div, mul_div_cancel_right₀ _ denPos'.ne']
  have restPos : (0 : ℚ) ≤ rest / den := by positivity
  have restLt : (rest : ℚ) / den < 1 := by
    rw [div_lt_one denPos']
    exact_mod_cast isRest ▸ Nat.mod_lt num denPos
  have atMost : (rest : ℚ) / den ≤ 1 / 2 ↔ 2 * rest ≤ den := by
    rw [div_le_div_iff₀ denPos' two_pos, one_mul, mul_comm]
    exact_mod_cast Iff.rfl
  have less : (rest : ℚ) / den < 1 / 2 ↔ 2 * rest < den := by
    rw [div_lt_div_iff₀ denPos' two_pos, one_mul, mul_comm]
    exact_mod_cast Iff.rfl
  rw [parts]
  simp only [divToEven, isFloor, isRest]
  split
  next down =>
    have near : (floor : ℚ) - (floor + rest / den) = -(rest / den) := by ring
    rw [near, abs_neg, abs_of_nonneg restPos, atMost, less]
    omega
  next up =>
    have near : ((floor + 1 : Nat) : ℚ) - (floor + rest / den) = 1 - rest / den := by
      push_cast
      ring
    rw [near, abs_of_pos (by linarith)]
    constructor
    · have notLess := mt less.mp fun closer => up (.inl closer)
      linarith
    · intro odd
      have notAtMost := mt atMost.mp (by omega)
      linarith

theorem divToEven_le (denPos : 0 < den) (less : (num : ℚ) / den < bound + 1 / 2) :
    divToEven num den ≤ bound := by
  have nearest := abs_le.mp (divToEven_spec num denPos).1
  have below : (divToEven num den : ℚ) < bound + 1 := by linarith
  exact Nat.lt_succ_iff.mp (by exact_mod_cast below)

/-- From halfway below an even number on, quotients are rounded up to it. -/
theorem le_divToEven (denPos : 0 < den) (even : bound % 2 = 0)
    (half : (bound : ℚ) - 1 / 2 ≤ num / den) : bound ≤ divToEven num den := by
  obtain ⟨nearest, odd⟩ := divToEven_spec num denPos
  rw [abs_le] at nearest
  by_contra below
  -- Only the odd neighbour below would be as near.
  have atLeast : (bound : ℚ) ≤ divToEven num den + 1 := by linarith
  have before : bound = divToEven num den + 1 := by
    have atLeast' : bound ≤ divToEven num den + 1 := by exact_mod_cast atLeast
    omega
  have nearer := abs_lt.mp (odd (by omega))
  rw [before] at half
  push_cast at half
  linarith

/-- Up to one half, quotients are rounded to zero. -/
theorem divToEven_eq_zero_iff (denPos : 0 < den) :
    divToEven num den = 0 ↔ (num : ℚ) / den ≤ 1 / 2 := by
  obtain ⟨nearest, odd⟩ := divToEven_spec num denPos
  rw [abs_le] at nearest
  constructor
  · intro zero
    rw [zero, Nat.cast_zero] at nearest
    linarith
  · intro half
    have atMost : (divToEven num den : ℚ) ≤ 1 := by linarith
    by_contra nonzero
    have one : divToEven num den = 1 := by
      have atMost' : divToEven num den ≤ 1 := by exact_mod_cast atMost
      omega
    have nearer := abs_lt.mp (odd (by rw [one]))
    rw [one, Nat.cast_one] at nearer
    linarith

end Quotients

namespace Binary64

/-- The numbers halfway between the greatest double and the next power of two, and halfway between
zero and the least double. -/
def overflow : ℚ := 2 ^ (1024 : ℤ) - 2 ^ (970 : ℤ)

def underflow : ℚ := 2 ^ (-1075 : ℤ)

/-- In units of the last bit of the greatest doubles. -/
theorem overflow_eq : overflow = (2 ^ 53 - 1 / 2) * 2 ^ (971 : ℤ) := by
  have top : (2 : ℚ) ^ (1024 : ℤ) = 2 ^ 53 * 2 ^ (971 : ℤ) := by
    rw [← zpow_natCast, ← zpow_add₀ two_ne_zero]
    norm_num
  have half : (2 : ℚ) ^ (970 : ℤ) = 1 / 2 * 2 ^ (971 : ℤ) := by
    rw [one_div, ← zpow_neg_one, ← zpow_add₀ two_ne_zero]
    norm_num
  rw [overflow, top, half, sub_mul]

theorem le_overflow : 2 ^ (1023 : ℤ) ≤ overflow := by
  have top : (2 : ℚ) ^ (1023 : ℤ) = 2 ^ 52 * 2 ^ (971 : ℤ) := by
    rw [← zpow_natCast, ← zpow_add₀ two_ne_zero]
    norm_num
  rw [overflow_eq, top]
  gcongr
  norm_num

theorem overflow_lt : overflow < 2 ^ (1024 : ℤ) :=
  sub_lt_self _ (by positivity)

/-- Powers of ten that are out of the range. -/
theorem overflow_le_tenPow : overflow ≤ 10 ^ (310 : ℤ) := by
  refine overflow_lt.le.trans ?_
  exact_mod_cast (by decide +kernel : 2 ^ 1024 ≤ 10 ^ 310)

theorem one_le_overflow : 1 ≤ overflow :=
  (one_le_zpow₀ one_le_two (by norm_num)).trans le_overflow

theorem underflow_eq : underflow = 1 / 2 * 2 ^ (-1074 : ℤ) := by
  rw [underflow, one_div, ← zpow_neg_one, ← zpow_add₀ two_ne_zero]
  norm_num

theorem tenPow_le_underflow : 10 ^ (-330 : ℤ) ≤ underflow := by
  rw [underflow, zpow_neg, zpow_neg]
  apply inv_anti₀ (by positivity)
  exact_mod_cast (by decide +kernel : 2 ^ 1075 ≤ 10 ^ 330)

theorem underflow_lt_one : underflow < 1 :=
  zpow_lt_one_of_neg₀ one_lt_two (by norm_num)

section Quotients

variable {negative : Bool} {num den bound : Nat}

theorem ofParts?_eq_none {significand : Nat} {exponent : ℤ}
    (beyond : 971 < exponent ∨ Nat.pow 2 53 ≤ significand) :
    ofParts? negative significand exponent = none := by
  rw [ofParts?, dif_neg]
  rintro ⟨less, -, atMost, -⟩
  omega

/-- The exponent of the last bit that a quotient is rounded to. -/
def lastBit (num den : Nat) : ℤ :=
  max (log2Quotient num den - 52) (-1074)

/-- A quotient in units of that bit. -/
def inUnits (num den : Nat) : ℚ :=
  num / den / 2 ^ lastBit num den

/-- The quotient in these units, rounded. -/
def rounded (num den : Nat) : Nat :=
  divToEven (num * Nat.pow 2 (-lastBit num den).toNat) (den * Nat.pow 2 (lastBit num den).toNat)

theorem ofQuotient?_eq : ofQuotient? negative num den =
    if rounded num den = Nat.pow 2 53 then ofParts? negative (Nat.pow 2 52) (lastBit num den + 1)
    else ofParts? negative (rounded num den) (lastBit num den) := rfl

theorem cast_twoPow (power : Nat) : ((Nat.pow 2 power : Nat) : ℚ) = 2 ^ power := by
  rw [Nat.pow_eq, Nat.cast_pow, Nat.cast_ofNat]

theorem inUnits_mul : inUnits num den * 2 ^ lastBit num den = num / den :=
  div_mul_cancel₀ _ (by positivity)

/-- What is rounded are the units. -/
theorem quotient_eq_inUnits : ((num * Nat.pow 2 (-lastBit num den).toNat : Nat) : ℚ) /
    (den * Nat.pow 2 (lastBit num den).toNat : Nat) = inUnits num den := by
  rw [inUnits, zpow_eq_div two_ne_zero, Nat.pow_eq, Nat.pow_eq]
  push_cast
  field_simp

section Rounded

variable (denPos : 0 < den)

include denPos

theorem units_pos (power : Nat) : 0 < den * Nat.pow 2 power :=
  Nat.mul_pos denPos (Nat.two_pow_pos power)

theorem rounded_le (less : inUnits num den < bound + 1 / 2) : rounded num den ≤ bound :=
  divToEven_le (units_pos denPos _) (quotient_eq_inUnits.trans_lt less)

theorem le_rounded (even : bound % 2 = 0) (half : (bound : ℚ) - 1 / 2 ≤ inUnits num den) :
    bound ≤ rounded num den :=
  le_divToEven (units_pos denPos _) even (half.trans_eq quotient_eq_inUnits.symm)

theorem rounded_eq_zero_iff : rounded num den = 0 ↔ inUnits num den ≤ 1 / 2 := by
  rw [rounded, divToEven_eq_zero_iff (units_pos denPos _), quotient_eq_inUnits]

end Rounded

section Positive

variable (numPos : 0 < num) (denPos : 0 < den)

include numPos denPos

theorem quotient_pos : (0 : ℚ) < num / den := by
  have numPos' : (0 : ℚ) < num := by exact_mod_cast numPos
  have denPos' : (0 : ℚ) < den := by exact_mod_cast denPos
  exact div_pos numPos' denPos'

/-- The significand has 53 bits at most, -/
theorem inUnits_lt : inUnits num den < 2 ^ 53 := by
  have log : (num : ℚ) / den < 2 ^ (53 + lastBit num den) := by
    have above : Int.log 2 ((num : ℚ) / den) < 53 + lastBit num den := by
      rw [lastBit, log2Quotient_eq numPos denPos]
      omega
    exact_mod_cast (Int.lt_zpow_iff_log_lt one_lt_two (quotient_pos numPos denPos)).mpr above
  rw [inUnits, div_lt_iff₀ (by positivity)]
  rwa [zpow_add₀ two_ne_zero] at log

/-- and no fewer unless its last bit is the least one. -/
theorem le_inUnits (normal : lastBit num den ≠ -1074) : 2 ^ 52 ≤ inUnits num den := by
  have log : 2 ^ (52 + lastBit num den) ≤ (num : ℚ) / den := by
    have below : 52 + lastBit num den ≤ Int.log 2 ((num : ℚ) / den) := by
      rw [lastBit, log2Quotient_eq numPos denPos] at normal ⊢
      omega
    exact_mod_cast (Int.zpow_le_iff_le_log one_lt_two (quotient_pos numPos denPos)).mpr below
  rw [inUnits, le_div_iff₀ (by positivity)]
  rwa [zpow_add₀ two_ne_zero] at log

theorem rounded_le_carry : rounded num den ≤ Nat.pow 2 53 := by
  have units := inUnits_lt numPos denPos
  apply rounded_le denPos
  rw [cast_twoPow]
  linarith

theorem normal_rounded (normal : lastBit num den ≠ -1074) : Nat.pow 2 52 ≤ rounded num den := by
  have units := le_inUnits numPos denPos normal
  apply le_rounded denPos (by decide)
  rw [cast_twoPow]
  linarith

/-- From the threshold on, the last bit is too large or the significand carries into it. -/
theorem ofQuotient?_of_overflow (beyond : overflow ≤ (num : ℚ) / den) :
    ofQuotient? negative num den = none := by
  have atLeast : 971 ≤ lastBit num den := by
    have large : (2 : ℚ) ^ (1023 : ℤ) ≤ num / den := le_overflow.trans beyond
    have log := (Int.zpow_le_iff_le_log one_lt_two (quotient_pos numPos denPos)).mp large
    rw [lastBit, log2Quotient_eq numPos denPos]
    omega
  rw [ofQuotient?_eq]
  rcases atLeast.lt_or_eq with above | least
  · split
    · exact ofParts?_eq_none (.inl (by omega))
    · exact ofParts?_eq_none (.inl above)
  · have carries : Nat.pow 2 53 ≤ rounded num den := by
      apply le_rounded denPos (by decide)
      rw [inUnits, le_div_iff₀ (by positivity), ← least, cast_twoPow, ← overflow_eq]
      exact beyond
    split
    · exact ofParts?_eq_none (.inl (by omega))
    · exact ofParts?_eq_none (.inr carries)

/-- Below the threshold there is a double, and it is zero just if nothing is left of the quotient. -/
theorem ofQuotient?_of_lt (negative : Bool) (inside : (num : ℚ) / den < overflow) :
    ∃ x, ofQuotient? negative num den = some x ∧ (x.isZero = true ↔ rounded num den = 0) := by
  have atLeast : -1074 ≤ lastBit num den := le_max_right _ _
  have atMost : lastBit num den ≤ 971 := by
    have less : (num : ℚ) / den < 2 ^ (1024 : ℤ) := inside.trans overflow_lt
    have log := (Int.lt_zpow_iff_log_lt one_lt_two (quotient_pos numPos denPos)).mp less
    rw [lastBit, log2Quotient_eq numPos denPos]
    omega
  have normal := normal_rounded numPos denPos
  rw [ofQuotient?_eq]
  split
  next carry =>
    -- The greatest double is not carried over.
    have notLast : lastBit num den ≠ 971 := by
      intro last
      have atMost' : rounded num den ≤ 2 ^ 53 - 1 := by
        apply rounded_le denPos
        have half : ((2 ^ 53 - 1 : Nat) : ℚ) + 1 / 2 = 2 ^ 53 - 1 / 2 := by norm_num
        rw [inUnits, div_lt_iff₀ (by positivity), last, half, ← overflow_eq]
        exact inside
      rw [carry] at atMost'
      exact absurd atMost' (by decide)
    have representable : Representable (Nat.pow 2 52) (lastBit num den + 1) :=
      ⟨by decide, by omega, by omega, .inl le_rfl⟩
    refine ⟨_, dif_pos representable, decide_eq_true_iff.trans ?_⟩
    change Nat.pow 2 52 = 0 ↔ rounded num den = 0
    rw [carry]
    decide
  next noCarry =>
    have representable : Representable (rounded num den) (lastBit num den) :=
      ⟨lt_of_le_of_ne (rounded_le_carry numPos denPos) noCarry, atLeast, atMost,
        or_iff_not_imp_right.mpr normal⟩
    exact ⟨_, dif_pos representable, decide_eq_true_iff⟩

/-- Nothing is left of a quotient just if it is below the threshold. -/
theorem rounded_eq_zero_iff_underflow : rounded num den = 0 ↔ (num : ℚ) / den ≤ underflow := by
  rw [rounded_eq_zero_iff denPos]
  by_cases least : lastBit num den = -1074
  · rw [underflow_eq, inUnits, least, div_le_iff₀ (by positivity)]
  · -- A normal quotient is far above.
    have units := le_inUnits numPos denPos least
    have atLeast : -1074 ≤ lastBit num den := le_max_right _ _
    have above : underflow < num / den := calc
      underflow = 1 / 2 * 2 ^ (-1074 : ℤ) := underflow_eq
      _ < 2 ^ 52 * 2 ^ (-1074 : ℤ) := by gcongr; norm_num
      _ ≤ inUnits num den * 2 ^ lastBit num den := by gcongr; exact one_le_two
      _ = num / den := inUnits_mul
    exact iff_of_false (by linarith) above.not_ge

end Positive

end Quotients

section Decimals

variable {negative : Bool} {coefficient : Nat} {scale : ℤ}

/-- A decimal is too large to be rounded, or it is rounded to a double that is zero just if the
decimal is too small. -/
theorem ofScaled?_range (negative : Bool) (coefficient : Nat) (scale : ℤ) :
    overflow ≤ (coefficient : ℚ) * 10 ^ scale ∧ ofScaled? negative coefficient scale = none ∨
      (coefficient : ℚ) * 10 ^ scale < overflow ∧
        ∃ x, ofScaled? negative coefficient scale = some x ∧
          (x.isZero = true ↔ (coefficient : ℚ) * 10 ^ scale ≤ underflow) := by
  rw [ofScaled?]
  split
  next tiny =>
    -- Zero, or so small that the digits are not looked at.
    have small : (coefficient : ℚ) * 10 ^ scale ≤ underflow := by
      by_cases zero : coefficient = 0
      · rw [zero, Nat.cast_zero, zero_mul, underflow]
        positivity
      · have below := tiny.resolve_left zero
        exact ((lt_magnitude zero).le.trans
          (zpow_le_zpow_right₀ (by norm_num) (by omega))).trans tenPow_le_underflow
    exact .inr ⟨by linarith [one_le_overflow, underflow_lt_one], _, rfl, iff_of_true rfl small⟩
  next notTiny =>
    obtain ⟨nonzero, notBelow⟩ := not_or.mp notTiny
    have numPos : 0 < coefficient * Nat.pow 10 scale.toNat :=
      Nat.mul_pos (Nat.pos_of_ne_zero nonzero) (tenPow_pos _)
    have denPos := tenPow_pos (-scale).toNat
    split
    next above =>
      have large : (10 : ℚ) ^ (310 : ℤ) ≤ coefficient * 10 ^ scale :=
        (zpow_le_zpow_right₀ (by norm_num) (by omega)).trans (magnitude_le nonzero)
      exact .inl ⟨overflow_le_tenPow.trans large, rfl⟩
    next =>
      rcases le_or_gt overflow ((coefficient : ℚ) * 10 ^ scale) with beyond | inside
      · refine .inl ⟨beyond, ofQuotient?_of_overflow numPos denPos ?_⟩
        rwa [quotient_of_scale]
      · obtain ⟨x, made, isZero⟩ := ofQuotient?_of_lt numPos denPos negative
          (quotient_of_scale.trans_lt inside)
        refine .inr ⟨inside, x, made, ?_⟩
        rw [isZero, rounded_eq_zero_iff_underflow numPos denPos, quotient_of_scale]

/-- Which decimals are too large. -/
theorem ofScaled?_eq_none_iff : ofScaled? negative coefficient scale = none ↔
    overflow ≤ (coefficient : ℚ) * 10 ^ scale := by
  rcases ofScaled?_range negative coefficient scale with ⟨beyond, none⟩ | ⟨inside, x, made, -⟩
  · exact iff_of_true none beyond
  · rw [made]
    exact iff_of_false (Option.some_ne_none x) inside.not_ge

/-- Which decimals are rounded to zero. -/
theorem isZero_iff_of_ofScaled? {x : Binary64}
    (made : ofScaled? negative coefficient scale = some x) :
    x.isZero = true ↔ (coefficient : ℚ) * 10 ^ scale ≤ underflow := by
  rcases ofScaled?_range negative coefficient scale with ⟨-, none⟩ | ⟨-, y, made', isZero⟩
  · rw [none] at made
    cases made
  · rw [made', Option.some.injEq] at made
    rwa [← made]

end Decimals

end Binary64

end DocQuery
