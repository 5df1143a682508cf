import DocQuery.Proofs.DecimalValue

/-!
# DocQuery.Proofs.CanonicalForm

Which texts are read as decimals, and as which.

The decimal of a text is its sign, its digits without the zeros around them, and the power of ten
of the last of these digits. Texts that denote one number may spread their digits around the point
and count their powers of ten in many ways; their decimals are equal.

## Main results

`eq_zeros_append_digitsOf`: digits are those of the number that they write, behind some zeros.
`Literal.hasForm_ofLiteral`: what the decimal of a literal is made of.
`Decimal.texts_have_canonical_forms`: the texts that are read, and when two are read alike.
-/

namespace DocQuery

/-! ### Digits -/

theorem toNat_of_isDigit {c : Char} (digit : c.isDigit = true) :
    '0'.toNat ≤ c.toNat ∧ c.toNat ≤ '9'.toNat := by
  simpa [Char.isDigit, UInt32.le_iff_toNat_le] using digit

/-- A digit is the text of the number that it writes. -/
theorem digitsOf_digit {c : Char} (digit : c.isDigit = true) :
    digitsOf (c.toNat - '0'.toNat) = [c] := by
  obtain ⟨atLeast, atMost⟩ := toNat_of_isDigit digit
  have all : ∀ n < 10, digitsOf n = [Char.ofNat ('0'.toNat + n)] := by decide
  have zero : '0'.toNat = 48 := rfl
  have nine : '9'.toNat = 57 := rfl
  have same : '0'.toNat + (c.toNat - '0'.toNat) = c.toNat := by omega
  rw [all _ (by omega), same, Char.ofNat_toNat]

theorem digitsValue_append_digit (digits : List Char) (c : Char) :
    digitsValue (digits ++ [c]) = 10 * digitsValue digits + (c.toNat - '0'.toNat) := by
  rw [digitsValue, Nat.ofDigitChars_append, Nat.ofDigitChars_cons, Nat.ofDigitChars_nil]
  rfl

/-- One more digit behind those of a number. -/
theorem digitsOf_append_digit {n : Nat} (nonzero : n ≠ 0) {c : Char} (digit : c.isDigit = true) :
    digitsOf (10 * n + (c.toNat - '0'.toNat)) = digitsOf n ++ [c] := by
  obtain ⟨-, atMost⟩ := toNat_of_isDigit digit
  have zero : '0'.toNat = 48 := rfl
  have nine : '9'.toNat = 57 := rfl
  rw [← digitsOf_digit digit, digitsOf, digitsOf, digitsOf,
    Nat.toDigits_append_toDigits (by decide) (Nat.pos_of_ne_zero nonzero) (by omega)]

/-- Digits are those of the number that they write, behind some zeros. -/
theorem eq_zeros_append_digitsOf {digits : List Char} (nonempty : digits ≠ [])
    (areDigits : AreDigits digits) :
    ∃ zeros, digits = List.replicate zeros '0' ++ digitsOf (digitsValue digits) := by
  -- The value grows at the last digit, so that is where the digits are taken apart.
  induction digits using List.reverseRecOn with
  | nil => exact absurd rfl nonempty
  | append_singleton digits c ih =>
    have digit : c.isDigit = true := areDigits c (by simp)
    rw [digitsValue_append_digit]
    by_cases empty : digits = []
    · refine ⟨0, ?_⟩
      rw [empty, digitsValue, Nat.ofDigitChars_nil, Nat.mul_zero, Nat.zero_add,
        digitsOf_digit digit]
      rfl
    obtain ⟨zeros, split⟩ := ih empty fun d member => areDigits d (List.mem_append_left _ member)
    by_cases zero : digitsValue digits = 0
    · -- Only zeros so far: the last digit alone is the number.
      refine ⟨zeros + 1, ?_⟩
      rw [zero] at split ⊢
      rw [Nat.mul_zero, Nat.zero_add, digitsOf_digit digit, List.replicate_succ', split]
      rfl
    · refine ⟨zeros, ?_⟩
      rw [digitsOf_append_digit zero digit, ← List.append_assoc, ← split]

/-! ### Forms -/

/-- The sign of a literal, its digits without the zeros around them, and the power of ten of the
last of these. Zero has neither sign nor power. -/
inductive Literal.HasForm (l : Literal) : Decimal → Prop
  | zero (zeros : ∀ c ∈ l.whole ++ l.fraction, c = '0') : HasForm l .zero
  | digits {d : Decimal} {before after : Nat} (nonzero : d.coefficient ≠ 0)
      (split : l.whole ++ l.fraction =
        List.replicate before '0' ++ (digitsOf d.coefficient ++ List.replicate after '0'))
      (sign : d.negative = l.negative)
      (power : d.exponent = l.exponent - l.fraction.length + after) : HasForm l d

theorem Literal.Spells.digits {l : Literal} {text : List Char} (spells : l.Spells text) :
    l.whole ++ l.fraction ≠ [] ∧ AreDigits (l.whole ++ l.fraction) := by
  obtain ⟨-, isMantissa, -⟩ := spells
  exact ⟨isMantissa.nonempty, isMantissa.areDigits⟩

theorem Literal.hasForm_ofLiteral {l : Literal} (nonempty : l.whole ++ l.fraction ≠ [])
    (areDigits : AreDigits (l.whole ++ l.fraction)) : l.HasForm (Decimal.ofLiteral l) := by
  obtain ⟨before, split⟩ := eq_zeros_append_digitsOf nonempty areDigits
  change _ = List.replicate before '0' ++ digitsOf l.coefficient at split
  by_cases zero : l.coefficient = 0
  · have isZero : Decimal.ofLiteral l = .zero := by
      rw [Decimal.ofLiteral, Decimal.ofScaled, dif_neg (not_not.mpr zero)]
    rw [zero] at split
    rw [isZero]
    refine .zero fun c member => ?_
    rw [split] at member
    rcases List.mem_append.mp member with inZeros | isLast
    · exact List.eq_of_mem_replicate inZeros
    · exact List.mem_singleton.mp isLast
  · obtain ⟨after, sign, value, raised⟩ := Decimal.ofScaled_spec zero l.negative l.scale
    change _ = (Decimal.ofLiteral l).coefficient * _ at value
    have nonzero : (Decimal.ofLiteral l).coefficient ≠ 0 := by
      intro vanishes
      rw [vanishes, Nat.zero_mul] at value
      exact zero value
    rw [value, digitsOf_mul_pow nonzero] at split
    exact .digits nonzero split sign raised

namespace Decimal

theorem ofText?_eq_some_iff {text : String} {d : Decimal} : ofText? text = some d ↔
    ∃ l : Literal, l.Spells text.toList ∧ ExponentFits l.exponent ∧ ofLiteral l = d := by
  simp only [ofText?, Option.map_eq_some_iff, Option.filter_eq_some_iff,
    Literal.ofText?_eq_some_iff, decide_eq_true_iff, and_assoc]

/-- Texts with equal decimals denote one number, and the other way round. -/
theorem eq_iff_of_denotes {s t : String} {d e : Decimal} (read : ofText? s = some d)
    (readToo : ofText? t = some e) : d = e ↔ ∃ q, Denotes s q ∧ Denotes t q := by
  have left := denotes_of_ofText? read
  have right := denotes_of_ofText? readToo
  constructor
  · rintro rfl
    exact ⟨d.value, left, right⟩
  · rintro ⟨q, denotes, denotesToo⟩
    exact value_injective ((left.unique denotes).trans (denotesToo.unique right))

/-- A text has a decimal just if it is a literal whose power of ten fits. The decimal is made of
the sign of the literal, of its digits without the zeros around them, and of the power of ten of
the last of these. Two decimals are equal just if their texts denote one number, the zeros of both
signs being one number. -/
theorem texts_have_canonical_forms :
    (∀ text : String, (∃ d, ofText? text = some d) ↔
      ∃ l : Literal, l.Spells text.toList ∧ ExponentFits l.exponent) ∧
    (∀ (text : String) (l : Literal) (d : Decimal), l.Spells text.toList →
      ofText? text = some d → l.HasForm d) ∧
    ∀ (s t : String) (d e : Decimal), ofText? s = some d → ofText? t = some e →
      (d = e ↔ ∃ q, Denotes s q ∧ Denotes t q) := by
  refine ⟨fun text => ?_, fun text l d spells read => ?_, fun s t d e => eq_iff_of_denotes⟩
  · constructor
    · rintro ⟨d, read⟩
      obtain ⟨l, spells, fits, -⟩ := ofText?_eq_some_iff.mp read
      exact ⟨l, spells, fits⟩
    · rintro ⟨l, spells, fits⟩
      exact ⟨ofLiteral l, ofText?_eq_some_iff.mpr ⟨l, spells, fits, rfl⟩⟩
  · obtain ⟨m, spells', -, rfl⟩ := ofText?_eq_some_iff.mp read
    -- A text spells one literal only.
    obtain rfl : m = l := by
      rw [← Literal.ofText?_eq_some_iff] at spells spells'
      exact Option.some.inj (spells'.symm.trans spells)
    exact Literal.hasForm_ofLiteral spells.digits.1 spells.digits.2

/-- Five with zeros around it and a power of ten, two zeros of different sign, and a half, which is
not five. -/
theorem unusualSpellings_have_canonical_forms :
    (∃ q, Denotes "0.0500e+2" q ∧ Denotes "5." q) ∧ (∃ q, Denotes "-0e7" q ∧ Denotes ".0" q) ∧
      (¬ ∃ q, Denotes ".5" q ∧ Denotes "5." q) ∧
      Literal.HasForm ⟨false, ['0'], ['0', '5', '0', '0'], 2⟩ ⟨false, 5, 0, by decide⟩ := by
  obtain ⟨-, forms, equal⟩ := texts_have_canonical_forms
  have five : ofText? "5." = some ⟨false, 5, 0, by decide⟩ := by decide +kernel
  have spread : ofText? "0.0500e+2" = some ⟨false, 5, 0, by decide⟩ := by decide +kernel
  have half : ofText? ".5" = some ⟨false, 5, -1, by decide⟩ := by decide +kernel
  have zero : ofText? ".0" = some .zero := by decide +kernel
  have negative : ofText? "-0e7" = some .zero := by decide +kernel
  refine ⟨(equal _ _ _ _ spread five).mp rfl, (equal _ _ _ _ negative zero).mp rfl,
    (equal _ _ _ _ half five).not.mp (by decide), forms "0.0500e+2" _ _ ?_ spread⟩
  exact Literal.ofText?_eq_some_iff.mp (by decide)

end Decimal

end DocQuery
