import DocQuery.Proofs.DecimalValue
import DocQuery.Proofs.RoundingRange
import Mathlib.Data.Option.Basic

/-!
# DocQuery.Proofs.ReadNumber

Numbers are read without being altered, or not at all.

A text is read as a whole number if it is an integer in range. Any other text is rounded to a
double, and the double is kept only if it stands for the decimal that the text denotes; so what is
lost by rounding is never returned, up to the numbers that are out of the range of doubles.

## Main results

`Number.ofText?_eq_some_whole_iff`: which texts are read as whole numbers.
`Number.denotes_of_ofText?`: what is read is what is written.
`Number.ofText?_of_out_of_range`: numbers out of the range of the doubles are not read.
`Number.reading_alters_nothing`: what a text is read as denotes what the text denotes.
-/

namespace DocQuery

namespace Number

variable {text : String}

theorem wholeFits_iff {value : ℤ} : WholeFits value ↔ -2 ^ 63 ≤ value ∧ value < 2 ^ 64 := by
  have least : Int64.minValue.toInt = -2 ^ 63 := by decide
  have size : ((UInt64.size : Nat) : ℤ) = 2 ^ 64 := by decide
  rw [WholeFits, least, size]

theorem doubleOfText?_eq_some_iff {x : Binary64} : doubleOfText? text = some x ↔
    (Literal.ofText? text.toList).bind Binary64.ofLiteral? = some x ∧
      Decimal.ofText? text = some (x.shortest .up) := by
  simp only [doubleOfText?, Option.bind_eq_bind, Option.bind_eq_some_iff, Option.guard_eq_some',
    Option.pure_def, Option.some.injEq]
  constructor
  · rintro ⟨l, read, y, rounded, -, exact, rfl⟩
    exact ⟨⟨l, read, rounded⟩, exact⟩
  · rintro ⟨⟨l, read, rounded⟩, exact⟩
    exact ⟨l, read, x, rounded, (), exact, rfl⟩

/-- What is read is an integer in range, or a double with the decimal of the text. -/
theorem ofText?_ok {n : Number} (read : ofText? text = some n) :
    (∃ value fits, IsInteger text.toList value ∧ n = .whole value fits) ∨
      ∃ x, doubleOfText? text = some x ∧ n = .double x := by
  rw [ofText?, Option.orElse_eq_some] at read
  rcases read with whole | ⟨-, double⟩
  · obtain ⟨value, isInteger, made⟩ := Option.bind_eq_some_iff.mp whole
    rw [ofInt?] at made
    split at made
    next fits =>
      cases made
      exact .inl ⟨value, fits, integer?_eq_some_iff.mp isInteger, rfl⟩
    next => cases made
  · obtain ⟨x, kept, rfl⟩ := Option.map_eq_some_iff.mp double
    exact .inr ⟨x, kept, rfl⟩

theorem ofText?_of_isInteger {value : ℤ} (isInteger : IsInteger text.toList value)
    (fits : WholeFits value) : ofText? text = some (.whole value fits) := by
  rw [ofText?, integer?_eq_some_iff.mpr isInteger, Option.bind_some, ofInt?, dif_pos fits]
  rfl

/-- Whole numbers are what integers in range are read as, and nothing else. -/
theorem ofText?_eq_some_whole_iff {value : ℤ} :
    (∃ fits, ofText? text = some (.whole value fits)) ↔
      IsInteger text.toList value ∧ -2 ^ 63 ≤ value ∧ value < 2 ^ 64 := by
  rw [← wholeFits_iff]
  constructor
  · rintro ⟨fits, read⟩
    rcases ofText?_ok read with ⟨value', fits', isInteger, same⟩ | ⟨x, -, same⟩
    · cases same
      exact ⟨isInteger, fits⟩
    · cases same
  · rintro ⟨isInteger, fits⟩
    exact ⟨fits, ofText?_of_isInteger isInteger fits⟩

/-- The text denotes the shortest decimal of the double that it is read as. -/
theorem denotes_of_doubleOfText? {x : Binary64} (read : doubleOfText? text = some x) :
    Denotes text (x.shortest .up).value :=
  Decimal.denotes_of_ofText? (doubleOfText?_eq_some_iff.mp read).2

/-- A text that is read denotes a number, and what is written for the number that it is read as
denotes the same, if that is settled. -/
theorem denotes_of_ofText? {n : Number} (read : ofText? text = some n) :
    ∃ q, Denotes text q ∧ (Denotes n.text q ↔ n.Settled) := by
  rcases ofText?_ok read with ⟨value, fits, isInteger, rfl⟩ | ⟨x, double, rfl⟩
  · exact ⟨value, isInteger.denotes, iff_of_true (denotes_text (.whole value fits)) trivial⟩
  · refine ⟨_, denotes_of_doubleOfText? double, ?_⟩
    rw [Settled, Binary64.settled_iff, ← Decimal.value_injective.eq_iff]
    constructor
    · exact fun denotes => (denotes_text (.double x)).unique denotes
    · exact fun same => same ▸ denotes_text (.double x)

theorem abs_lt_overflow {value : ℤ} (fits : WholeFits value) :
    |(value : ℚ)| < Binary64.overflow := by
  obtain ⟨atLeast, atMost⟩ := wholeFits_iff.mp fits
  have inside : |value| ≤ 2 ^ 64 := abs_le.mpr ⟨by omega, by omega⟩
  calc |(value : ℚ)| ≤ 2 ^ 64 := by exact_mod_cast inside
    _ = 2 ^ (64 : ℤ) := by norm_num
    _ < 2 ^ (1023 : ℤ) := zpow_lt_zpow_right₀ one_lt_two (by norm_num)
    _ ≤ Binary64.overflow := Binary64.le_overflow

/-- A number out of the range of the doubles is not read. -/
theorem ofText?_of_out_of_range {q : ℚ} (denotes : Denotes text q)
    (out : Binary64.overflow ≤ |q| ∨ q ≠ 0 ∧ |q| ≤ Binary64.underflow) : ofText? text = none := by
  rw [Option.eq_none_iff_forall_ne_some]
  intro n read
  rcases ofText?_ok read with ⟨value, fits, isInteger, rfl⟩ | ⟨x, double, rfl⟩
  · obtain rfl := denotes.unique isInteger.denotes
    rcases out with beyond | ⟨nonzero, tiny⟩
    · exact absurd (abs_lt_overflow fits) beyond.not_gt
    · have atLeast : (1 : ℚ) ≤ |(value : ℚ)| := by
        exact_mod_cast Int.one_le_abs (Int.cast_ne_zero.mp nonzero)
      linarith [Binary64.underflow_lt_one]
  · obtain ⟨l, spells, isValue⟩ := denotes
    obtain ⟨rounded, -⟩ := doubleOfText?_eq_some_iff.mp double
    rw [Literal.ofText?_eq_some_iff.mpr spells, Option.bind_some, Binary64.ofLiteral?] at rounded
    rw [← isValue, Literal.value, abs_scaledValue, scaledValue_eq_zero_iff.ne] at out
    rcases out with beyond | ⟨nonzero, tiny⟩
    · rw [Binary64.ofScaled?_eq_none_iff.mpr beyond] at rounded
      cases rounded
    · -- The double is zero, and the text would denote what zero stands for.
      have isZero := (Binary64.isZero_iff_of_ofScaled? rounded).mpr tiny
      have same := Denotes.unique ⟨l, spells, rfl⟩ (denotes_of_doubleOfText? double)
      rw [Decimal.value,
        scaledValue_eq_zero_iff.mpr ((Binary64.isZero_iff_coefficient_shortest .up).mp isZero),
        Literal.value, scaledValue_eq_zero_iff] at same
      exact nonzero same

end Number

/-- What a number is read as denotes what the text denotes, provided that its texts agree. The
integers in range are read as whole numbers; words and numbers that a double cannot come near to
are not read. -/
theorem Number.reading_alters_nothing (text : String) :
    (∀ n, Number.ofText? text = some n →
      ∃ q, Denotes text q ∧ (Denotes n.text q ↔ n.Settled)) ∧
    (∀ value, (∃ fits, Number.ofText? text = some (.whole value fits)) ↔
      IsInteger text.toList value ∧ -2 ^ 63 ≤ value ∧ value < 2 ^ 64) ∧
    ((∃ c ∈ text.toList, ¬ (c.isDigit = true ∨ c ∈ ['+', '-', '.', 'e', 'E'])) →
      Number.ofText? text = none) ∧
    ∀ q, Denotes text q → Binary64.overflow ≤ |q| ∨ q ≠ 0 ∧ |q| ≤ Binary64.underflow →
      Number.ofText? text = none := by
  refine ⟨fun n => denotes_of_ofText?, fun value => ofText?_eq_some_whole_iff, ?_,
    fun q => ofText?_of_out_of_range⟩
  rintro ⟨c, member, foreign⟩
  rw [Option.eq_none_iff_forall_ne_some]
  intro n read
  obtain ⟨q, ⟨l, spells, -⟩, -⟩ := denotes_of_ofText? read
  exact foreign (spells.mem member)

/-- `"1.50"` is read as the number that it denotes; of the whole numbers with a sign and zeros in
front of them, those of 64 bits are read; and neither words nor numbers out of range are. -/
theorem unusualTexts_are_not_altered :
    (∃ n q, Number.ofText? "1.50" = some n ∧ Denotes "1.50" q ∧ Denotes n.text q) ∧
    (∃ fits, Number.ofText? "+007" = some (.whole 7 fits)) ∧
    (∃ fits, Number.ofText? "-9223372036854775808" = some (.whole (-2 ^ 63) fits)) ∧
    (∃ fits, Number.ofText? "18446744073709551615" = some (.whole (2 ^ 64 - 1) fits)) ∧
    Number.ofText? "-inf" = none ∧ Number.ofText? "NaN" = none ∧
    Number.ofText? "1e309" = none ∧ Number.ofText? "-1e-400" = none := by
  have fraction : ∃ n, Number.ofText? "1.50" = some n ∧ n.Settled :=
    ⟨.double ⟨false, 6755399441055744, -52, by decide⟩, by decide +kernel, by decide +kernel⟩
  have large : Denotes "1e309" (10 ^ (309 : ℤ)) := by
    refine ⟨⟨false, ['1'], [], 309⟩, Literal.ofText?_eq_some_iff.mp (by decide), ?_⟩
    change scaledValue false 1 309 = _
    simp only [scaledValue, Bool.false_eq_true, if_false, Nat.cast_one, one_mul]
  have small : Denotes "-1e-400" (-10 ^ (-400 : ℤ)) := by
    refine ⟨⟨true, ['1'], [], -400⟩, Literal.ofText?_eq_some_iff.mp (by decide), ?_⟩
    change scaledValue true 1 (-400) = _
    simp only [scaledValue, if_true, Nat.cast_one, one_mul, neg_one_mul]
  have beyond : Binary64.overflow ≤ |10 ^ (309 : ℤ)| := by
    rw [abs_of_pos (by positivity), Binary64.overflow]
    apply (sub_le_self _ (by positivity)).trans
    exact_mod_cast (by decide +kernel : 2 ^ 1024 ≤ 10 ^ 309)
  have tiny : |(-10 ^ (-400 : ℤ) : ℚ)| ≤ Binary64.underflow := by
    rw [abs_neg, abs_of_pos (by positivity), Binary64.underflow, zpow_neg, zpow_neg]
    apply inv_anti₀ (by positivity)
    exact_mod_cast (by decide +kernel : 2 ^ 1075 ≤ 10 ^ 400)
  refine ⟨?_, ?_, ?_, ?_, ?_, ?_, ?_, ?_⟩
  · obtain ⟨n, read, settled⟩ := fraction
    obtain ⟨q, denotes, same⟩ := (Number.reading_alters_nothing "1.50").1 n read
    exact ⟨n, q, read, denotes, same.mpr settled⟩
  · exact ((Number.reading_alters_nothing _).2.1 7).mpr
      ⟨integer?_eq_some_iff.mp (by decide), by decide, by decide⟩
  · exact ((Number.reading_alters_nothing _).2.1 _).mpr
      ⟨integer?_eq_some_iff.mp (by decide), by decide, by decide⟩
  · exact ((Number.reading_alters_nothing _).2.1 _).mpr
      ⟨integer?_eq_some_iff.mp (by decide), by decide, by decide⟩
  · exact (Number.reading_alters_nothing _).2.2.1 ⟨'i', by decide, by decide⟩
  · exact (Number.reading_alters_nothing _).2.2.1 ⟨'N', by decide, by decide⟩
  · exact (Number.reading_alters_nothing _).2.2.2 _ large (.inl beyond)
  · exact (Number.reading_alters_nothing _).2.2.2 _ small
      (.inr ⟨neg_ne_zero.mpr (by positivity), tiny⟩)

end DocQuery
