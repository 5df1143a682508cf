import DocQuery.Number
import DocQuery.Proofs.LiteralText
import DocQuery.Proofs.Shortest

/-!
# DocQuery.Proofs.NumberText

Numbers that are read from their own texts.

The text of a double is laid out in one of three ways. All of them write a literal that has the
value of the shortest decimal, and a literal is read from what it is written as.

## Main results

`Literal.ofText?_written`: a literal is read from its text.
`Binary64.ofLiteral?_text`: the text of a double reads back as that double.
`Binary64.settled_of_apart`: a double is settled unless it lies halfway between two decimals.
`Number.ofText?_text`: a number is read from its text just if it is settled.
-/

namespace DocQuery

/-! ### Digits -/

theorem isDigit_of_mem_digitsOf {n : Nat} {c : Char} (member : c ∈ digitsOf n) :
    c.isDigit = true :=
  Nat.isDigit_of_mem_toDigits (by decide) (by decide) member

theorem digitsOf_ne_nil (n : Nat) : digitsOf n ≠ [] :=
  List.length_pos_iff.mp (length_digitsOf_pos n)

theorem digitsValue_digitsOf (n : Nat) : digitsValue (digitsOf n) = n :=
  Nat.ofDigitChars_ten_toDigits

theorem digitsValue_append_zeros (digits : List Char) (more : Nat) :
    digitsValue (digits ++ List.replicate more '0') = digitsValue digits * 10 ^ more := by
  rw [digitsValue, Nat.ofDigitChars_append, Nat.ofDigitChars_replicate_zero, Nat.mul_comm]
  rfl

theorem digitsValue_zeros_append (digits : List Char) (more : Nat) :
    digitsValue (List.replicate more '0' ++ digits) = digitsValue digits := by
  rw [digitsValue, Nat.ofDigitChars_append, Nat.ofDigitChars_replicate_zero, Nat.mul_zero]
  rfl

/-! ### Integers -/

theorem IsSign.isInteger_digitsOf {sign : List Char} {negative : Bool}
    (signed : IsSign sign negative) (n : Nat) :
    IsInteger (sign ++ digitsOf n) (if negative then -(n : ℤ) else n) := by
  have digits := IsInteger.mk signed (digitsOf_ne_nil n) fun c => isDigit_of_mem_digitsOf
  rwa [digitsValue_digitsOf] at digits

theorem toList_integerText (value : ℤ) : (integerText value).toList =
    (if value < 0 then ['-'] else []) ++ digitsOf value.natAbs := by
  rw [integerText, String.toList_append, String.toList_ofList]
  split <;> rfl

theorem isInteger_integerText (value : ℤ) : IsInteger (integerText value).toList value := by
  rw [toList_integerText]
  by_cases negative : value < 0
  · have digits := IsSign.minus.isInteger_digitsOf value.natAbs
    rw [if_pos rfl, Int.ofNat_natAbs_of_nonpos negative.le, neg_neg] at digits
    rwa [if_pos negative]
  · have digits := IsSign.missing.isInteger_digitsOf value.natAbs
    rw [if_neg Bool.false_ne_true, Int.natAbs_of_nonneg (not_lt.mp negative)] at digits
    rwa [if_neg negative]

/-- A whole number is read from its text. -/
theorem integer?_integerText (value : ℤ) : integer? (integerText value).toList = some value :=
  integer?_eq_some_iff.mpr (isInteger_integerText value)

/-- The text of a power of ten, which always has a sign. -/
def signedText (value : ℤ) : List Char :=
  (if value < 0 then [] else ['+']) ++ (integerText value).toList

theorem isInteger_signedText (value : ℤ) : IsInteger (signedText value) value := by
  rw [signedText]
  by_cases negative : value < 0
  · rw [if_pos negative, List.nil_append]
    exact isInteger_integerText value
  · have digits := IsSign.plus.isInteger_digitsOf value.natAbs
    rw [if_neg Bool.false_ne_true, Int.natAbs_of_nonneg (not_lt.mp negative)] at digits
    rwa [if_neg negative, toList_integerText, if_neg negative, List.nil_append]

/-! ### Literals -/

namespace Literal

variable {l : Literal}

/-- The sign of a literal, if it is not left out. -/
def sign (l : Literal) : List Char :=
  if l.negative then ['-'] else []

/-- The digits of a literal, with a point between them if there is a fraction. -/
def mantissa (l : Literal) : List Char :=
  l.whole ++ if l.fraction = [] then [] else '.' :: l.fraction

/-- The power of ten of a literal, which is left out if it is zero. -/
def power (l : Literal) : List Char :=
  if l.exponent = 0 then [] else 'e' :: signedText l.exponent

/-- The text of a literal. -/
def written (l : Literal) : List Char :=
  l.sign ++ (l.mantissa ++ l.power)

theorem written_of_fraction (fraction : l.fraction ≠ []) (plain : l.exponent = 0) :
    l.written = l.sign ++ (l.whole ++ '.' :: l.fraction) := by
  rw [written, mantissa, power, if_neg fraction, if_pos plain, List.append_nil]

theorem written_of_exponent (exponent : l.exponent ≠ 0) :
    l.written = l.sign ++ (l.whole ++ ((if l.fraction = [] then [] else '.' :: l.fraction) ++
      'e' :: signedText l.exponent)) := by
  rw [written, mantissa, power, if_neg exponent, List.append_assoc]

/-- There are digits before the point, and nothing but digits. -/
structure IsProper (l : Literal) : Prop where
  whole_ne_nil : l.whole ≠ []
  isDigit : ∀ c ∈ l.whole ++ l.fraction, c.isDigit = true

theorem isSign_sign (l : Literal) : IsSign l.sign l.negative := by
  rw [sign]
  cases l.negative with
  | true => exact .minus
  | false => exact .missing

theorem isMantissa_mantissa (proper : l.IsProper) :
    IsMantissa l.mantissa l.whole l.fraction := by
  rw [mantissa]
  split
  next plain =>
    rw [plain, List.append_nil]
    exact .plain proper.whole_ne_nil fun c member =>
      proper.isDigit c (List.mem_append_left _ member)
  next => exact .pointed (List.append_ne_nil_of_left_ne_nil proper.whole_ne_nil _) proper.isDigit

theorem isPower_power (l : Literal) : IsPower l.power l.exponent := by
  rw [power]
  split
  next plain =>
    rw [plain]
    exact .missing
  next => exact .marked (.inl rfl) (isInteger_signedText l.exponent)

theorem spells_written (proper : l.IsProper) : l.Spells l.written :=
  .mk l.isSign_sign (isMantissa_mantissa proper) l.isPower_power

/-- A literal is read from its text. -/
theorem ofText?_written (proper : l.IsProper) : ofText? l.written = some l :=
  ofText?_eq_some_iff.mpr (spells_written proper)

/-- A literal with a fraction or a power of ten is no integer. -/
theorem integer?_written (broken : l.fraction ≠ [] ∨ l.exponent ≠ 0) :
    integer? l.written = none := by
  obtain ⟨c, member, other⟩ :
      ∃ c ∈ l.written, ¬ (c.isDigit = true ∨ c ∈ ['+', '-']) := by
    rcases broken with fraction | exponent
    · refine ⟨'.', ?_, by decide⟩
      rw [written, mantissa, if_neg fraction]
      simp
    · refine ⟨'e', ?_, by decide⟩
      rw [written, power, if_neg exponent]
      simp
  rw [Option.eq_none_iff_forall_ne_some]
  intro value read
  exact other ((integer?_eq_some_iff.mp read).mem member)

end Literal

/-! ### Layouts -/

namespace Decimal

/-- The power of ten of the first digit. -/
def power (d : Decimal) : ℤ :=
  (digitsOf d.coefficient).length - 1 + d.exponent

/-- The point among the digits, or after them and some zeros. -/
def pointAmong (d : Decimal) (negative : Bool) : Literal :=
  let digits := digitsOf d.coefficient
  let split := d.power.toNat + 1
  ⟨negative, digits.take split ++ List.replicate (split - digits.length) '0',
    if digits.drop split = [] then ['0'] else digits.drop split, 0⟩

/-- The point before the digits, and zeros between. -/
def pointBefore (d : Decimal) (negative : Bool) : Literal :=
  ⟨negative, ['0'], List.replicate (-d.power - 1).toNat '0' ++ digitsOf d.coefficient, 0⟩

/-- The point after the first digit, and a power of ten. -/
def scientific (d : Decimal) (negative : Bool) : Literal :=
  ⟨negative, (digitsOf d.coefficient).take 1, (digitsOf d.coefficient).drop 1, d.power⟩

/-- The magnitude of a decimal, with zeros at the end of the coefficient or without. -/
def IsMagnitudeOf (d : Decimal) (l : Literal) : Prop :=
  ∃ more : Nat, l.coefficient = d.coefficient * 10 ^ more ∧ l.scale + more = d.exponent

variable {d : Decimal} {negative : Bool}

theorem pointAmong_isProper : (d.pointAmong negative).IsProper where
  whole_ne_nil := by
    have := length_digitsOf_pos d.coefficient
    rw [← List.length_pos_iff]
    simp only [pointAmong, List.length_append, List.length_take]
    omega
  isDigit := by
    intro c member
    simp only [pointAmong, List.append_assoc, List.mem_append, List.mem_replicate] at member
    rcases member with inWhole | ⟨-, rfl⟩ | inFraction
    · exact isDigit_of_mem_digitsOf (List.mem_of_mem_take inWhole)
    · rfl
    · split at inFraction
      next =>
        rw [List.mem_singleton.mp inFraction]
        rfl
      next => exact isDigit_of_mem_digitsOf (List.mem_of_mem_drop inFraction)

theorem pointAmong_fraction_ne_nil : (d.pointAmong negative).fraction ≠ [] := by
  simp only [pointAmong]
  split
  next => exact List.cons_ne_nil _ _
  next some => exact some

theorem isMagnitudeOf_pointAmong (notBefore : 0 ≤ d.power) :
    d.IsMagnitudeOf (d.pointAmong negative) := by
  have power : d.power = (digitsOf d.coefficient).length - 1 + d.exponent := rfl
  by_cases short : (digitsOf d.coefficient).length ≤ d.power.toNat + 1
  · -- The zeros after the digits, that after the point among them, count as powers of ten.
    refine ⟨d.power.toNat + 1 - (digitsOf d.coefficient).length + 1, ?_, ?_⟩
    · simp only [Literal.coefficient, pointAmong, List.drop_eq_nil_of_le short, if_true,
        List.take_of_length_le short, List.append_assoc]
      rw [← List.replicate_succ', digitsValue_append_zeros, digitsValue_digitsOf]
    · simp only [Literal.scale, pointAmong, List.drop_eq_nil_of_le short, if_true,
        List.length_singleton]
      omega
  · have rest : (digitsOf d.coefficient).drop (d.power.toNat + 1) ≠ [] := by
      rw [ne_eq, List.drop_eq_nil_iff]
      exact short
    refine ⟨0, ?_, ?_⟩
    · simp only [Literal.coefficient, pointAmong, if_neg rest,
        Nat.sub_eq_zero_of_le (Nat.le_of_not_le short), List.replicate_zero, List.append_nil,
        List.take_append_drop, digitsValue_digitsOf, Nat.pow_zero, Nat.mul_one]
    · simp only [Literal.scale, pointAmong, if_neg rest, List.length_drop]
      omega

theorem pointBefore_isProper : (d.pointBefore negative).IsProper where
  whole_ne_nil := List.cons_ne_nil _ _
  isDigit := by
    intro c member
    simp only [pointBefore, List.mem_append, List.mem_singleton, List.mem_replicate] at member
    rcases member with rfl | ⟨-, rfl⟩ | inDigits
    · rfl
    · rfl
    · exact isDigit_of_mem_digitsOf inDigits

theorem pointBefore_fraction_ne_nil : (d.pointBefore negative).fraction ≠ [] :=
  List.append_ne_nil_of_right_ne_nil _ (digitsOf_ne_nil _)

theorem isMagnitudeOf_pointBefore (before : d.power < 0) :
    d.IsMagnitudeOf (d.pointBefore negative) := by
  have power : d.power = (digitsOf d.coefficient).length - 1 + d.exponent := rfl
  refine ⟨0, ?_, ?_⟩
  · have zeros : ['0'] = List.replicate 1 '0' := rfl
    simp only [Literal.coefficient, pointBefore]
    rw [zeros, digitsValue_zeros_append, digitsValue_zeros_append, digitsValue_digitsOf,
      Nat.pow_zero, Nat.mul_one]
  · simp only [Literal.scale, pointBefore, List.length_append, List.length_replicate]
    omega

theorem scientific_isProper : (d.scientific negative).IsProper where
  whole_ne_nil := by
    rw [scientific, ne_eq, List.take_eq_nil_iff]
    simp [digitsOf_ne_nil]
  isDigit := by
    intro c member
    rw [scientific, List.take_append_drop] at member
    exact isDigit_of_mem_digitsOf member

theorem isMagnitudeOf_scientific : d.IsMagnitudeOf (d.scientific negative) := by
  have power : d.power = (digitsOf d.coefficient).length - 1 + d.exponent := rfl
  have := length_digitsOf_pos d.coefficient
  refine ⟨0, ?_, ?_⟩
  · simp only [Literal.coefficient, scientific, List.take_append_drop, digitsValue_digitsOf,
      Nat.pow_zero, Nat.mul_one]
  · simp only [Literal.scale, scientific, List.length_drop]
    omega

/-- A literal of the magnitude and the sign of a decimal denotes it. -/
theorem ofLiteral_of_isMagnitudeOf {l : Literal} (magnitude : d.IsMagnitudeOf l)
    (nonzero : d.coefficient ≠ 0) (sign : l.negative = d.negative) : ofLiteral l = d := by
  obtain ⟨more, coefficient, scale⟩ := magnitude
  rw [ofLiteral, coefficient, ofScaled_mul_pow nonzero, scale, sign, ofScaled_self d nonzero]

end Decimal

namespace Binary64

/-- The literal that is written for a double. -/
def literal (x : Binary64) : Literal :=
  let decimal := x.shortest .toEven
  if x.isZero then ⟨x.negative, ['0'], ['0'], 0⟩
  else if 0 ≤ decimal.power ∧ decimal.power ≤ 15 then decimal.pointAmong x.negative
  else if -5 ≤ decimal.power ∧ decimal.power < 0 then decimal.pointBefore x.negative
  else decimal.scientific x.negative

theorem toList_text (x : Binary64) : x.text.toList = x.literal.written := by
  have toList_sign : (if x.negative then "-" else "").toList =
      if x.negative then ['-'] else [] := by
    split <;> rfl
  by_cases isZero : x.isZero = true
  · rw [literal, if_pos isZero]
    simp only [text, if_pos isZero, String.toList_append, toList_sign]
    rfl
  by_cases among : 0 ≤ (x.shortest .toEven).power ∧ (x.shortest .toEven).power ≤ 15
  · rw [literal, if_neg isZero, if_pos among,
      Literal.written_of_fraction Decimal.pointAmong_fraction_ne_nil rfl]
    rw [Decimal.power] at among
    simp only [text, if_neg isZero, if_pos among, String.toList_append, toList_sign,
      String.toList_ofList]
    rfl
  by_cases before : -5 ≤ (x.shortest .toEven).power ∧ (x.shortest .toEven).power < 0
  · rw [literal, if_neg isZero, if_neg among, if_pos before,
      Literal.written_of_fraction Decimal.pointBefore_fraction_ne_nil rfl]
    rw [Decimal.power] at among before
    simp only [text, if_neg isZero, if_neg among, if_pos before, String.toList_append, toList_sign,
      String.toList_ofList]
    rfl
  · have exponentNe : (x.shortest .toEven).power ≠ 0 := by omega
    have toList_plus : (if (x.shortest .toEven).power < 0 then "" else "+").toList =
        if (x.shortest .toEven).power < 0 then [] else ['+'] := by
      split <;> rfl
    rw [literal, if_neg isZero, if_neg among, if_neg before, Literal.written_of_exponent exponentNe]
    rw [Decimal.power] at among before toList_plus
    simp only [text, if_neg isZero, if_neg among, if_neg before, String.toList_append, toList_sign,
      String.toList_ofList, toList_plus, List.append_assoc]
    rfl

/-- What a literal is that can be read as a double and as nothing else. -/
structure IsWrittenAs (x : Binary64) (l : Literal) : Prop where
  proper : l.IsProper
  broken : l.fraction ≠ [] ∨ l.exponent ≠ 0
  fits : Decimal.ExponentFits l.exponent
  reads : ofLiteral? l = some x
  denotes : Decimal.ofLiteral l = x.shortest .toEven

variable {x : Binary64}

theorem eq_zero (isZero : x.isZero = true) : x = zero x.negative := by
  obtain ⟨negative, significand, exponent, representable⟩ := x
  obtain rfl : significand = 0 := by simpa [Binary64.isZero] using isZero
  obtain rfl : exponent = -1074 := by
    rcases representable.2.2.2 with normal | least
    · exact absurd normal (by decide)
    · exact least
  rfl

theorem isWrittenAs_of_isZero (isZero : x.isZero = true) :
    x.IsWrittenAs ⟨x.negative, ['0'], ['0'], 0⟩ where
  proper := ⟨List.cons_ne_nil _ _, List.all_eq_true.mp (rfl : ['0', '0'].all Char.isDigit = true)⟩
  broken := .inl (List.cons_ne_nil _ _)
  fits := (by decide : Decimal.ExponentFits 0)
  reads := by
    rw [eq_zero isZero]
    rfl
  denotes := by
    rw [shortest, if_pos isZero]
    rfl

theorem isWrittenAs_of_isMagnitudeOf {l : Literal} (nonzero : x.isZero = false)
    (magnitude : (x.shortest .toEven).IsMagnitudeOf l) (sign : l.negative = x.negative)
    (proper : l.IsProper) (broken : l.fraction ≠ [] ∨ l.exponent ≠ 0)
    (fits : Decimal.ExponentFits l.exponent) : x.IsWrittenAs l := by
  obtain ⟨sameSign, coefficientNe, reads⟩ := ofScaled?_shortest .toEven nonzero
  refine ⟨proper, broken, fits, ?_,
    Decimal.ofLiteral_of_isMagnitudeOf magnitude coefficientNe (sign.trans sameSign.symm)⟩
  obtain ⟨more, coefficient, scale⟩ := magnitude
  rw [ofLiteral?, coefficient, ofScaled?_mul_pow, scale, sign, reads]

theorem exponentFits_power {tie : Tie} (nonzero : x.isZero = false) :
    Decimal.ExponentFits (x.shortest tie).power := by
  obtain ⟨-, -, reads⟩ := ofScaled?_shortest tie nonzero
  obtain ⟨-, notBelow, notAbove⟩ := magnitude_of_ofScaled? nonzero reads
  have least : Int64.minValue.toInt = -9223372036854775808 := by decide
  have greatest : Int64.maxValue.toInt = 9223372036854775807 := by decide
  rw [Decimal.ExponentFits, Decimal.power, least, greatest]
  omega

theorem isWrittenAs_literal (x : Binary64) : x.IsWrittenAs x.literal := by
  have zeroFits : Decimal.ExponentFits 0 := by decide
  cases isZero : x.isZero with
  | true =>
    rw [literal, if_pos isZero]
    exact isWrittenAs_of_isZero isZero
  | false =>
    rw [literal, if_neg (by simp [isZero])]
    split
    next among =>
      exact isWrittenAs_of_isMagnitudeOf isZero (Decimal.isMagnitudeOf_pointAmong among.1) rfl
        Decimal.pointAmong_isProper (.inl Decimal.pointAmong_fraction_ne_nil) zeroFits
    next notAmong =>
      split
      next before =>
        exact isWrittenAs_of_isMagnitudeOf isZero (Decimal.isMagnitudeOf_pointBefore before.2) rfl
          Decimal.pointBefore_isProper (.inl Decimal.pointBefore_fraction_ne_nil) zeroFits
      next =>
        have exponentNe : (x.shortest .toEven).power ≠ 0 := by omega
        exact isWrittenAs_of_isMagnitudeOf isZero Decimal.isMagnitudeOf_scientific rfl
          Decimal.scientific_isProper (.inr exponentNe) (exponentFits_power isZero)

/-- The text of a double reads back as that double. -/
theorem ofLiteral?_text (x : Binary64) :
    (Literal.ofText? x.text.toList).bind ofLiteral? = some x := by
  rw [toList_text, Literal.ofText?_written x.isWrittenAs_literal.proper]
  exact x.isWrittenAs_literal.reads

/-- The text of a double is no integer. -/
theorem integer?_text (x : Binary64) : integer? x.text.toList = none := by
  rw [toList_text]
  exact Literal.integer?_written x.isWrittenAs_literal.broken

/-- The text of a double denotes its shortest decimal. -/
theorem ofText?_text (x : Binary64) : Decimal.ofText? x.text = some (x.shortest .toEven) := by
  have written := x.isWrittenAs_literal
  rw [Decimal.ofText?, toList_text, Literal.ofText?_written written.proper, Option.filter_some,
    if_pos (decide_eq_true written.fits), Option.map_some, written.denotes]

/-- Whether both texts of a double, that of JSON and the one it is compared with when it is read,
denote the same decimal. -/
def Settled (x : Binary64) : Prop :=
  Decimal.ofText? x.text = some (x.shortest .up)

instance (x : Binary64) : Decidable x.Settled :=
  inferInstanceAs (Decidable (_ = _))

/-- The texts differ only where ties are broken in different ways. -/
theorem settled_iff {x : Binary64} : x.Settled ↔ x.shortest .toEven = x.shortest .up := by
  rw [Settled, ofText?_text, Option.some.injEq]

theorem settled_of_apart {x : Binary64}
    (apart : ∀ more : Nat, more < 17 → ¬ x.IsHalfway (x.log10 - more)) : x.Settled :=
  settled_iff.mpr (shortest_toEven apart)

/-- The double `2 ^ -25` stands halfway between two decimals of seventeen digits. -/
example : ¬ (⟨false, 4503599627370496, -77, by decide⟩ : Binary64).Settled := by decide +kernel

end Binary64

namespace Number

/-- Whether the texts of a number denote the same decimal. -/
def Settled : Number → Prop
  | .whole _ _ => True
  | .double x => x.Settled

instance : DecidablePred Settled
  | .whole _ _ => inferInstanceAs (Decidable True)
  | .double x => inferInstanceAs (Decidable x.Settled)

theorem doubleOfText?_text (x : Binary64) :
    doubleOfText? x.text = if x.Settled then some x else none := by
  have written := x.isWrittenAs_literal
  rw [doubleOfText?, Binary64.toList_text, Literal.ofText?_written written.proper,
    Option.bind_eq_bind, Option.bind_some, written.reads, Option.bind_eq_bind, Option.bind_some]
  by_cases settled : x.Settled
  · rw [if_pos settled, guard, if_pos (show _ = _ from settled)]
    rfl
  · rw [if_neg settled, guard, if_neg (show ¬ _ = _ from settled)]
    rfl

/-- A number is read from its text if it is settled, and else nothing is read. -/
theorem ofText?_text (n : Number) : ofText? n.text = if n.Settled then some n else none := by
  cases n with
  | whole value fits =>
    rw [text, ofText?, integer?_integerText, Option.bind_some, ofInt?, dif_pos fits]
    rfl
  | double x =>
    rw [text, ofText?, x.integer?_text, Option.bind_none, doubleOfText?_text]
    by_cases settled : x.Settled
    · rw [if_pos settled, if_pos (show Settled (.double x) from settled)]
      rfl
    · rw [if_neg settled, if_neg (show ¬ Settled (.double x) from settled)]
      rfl

theorem ofText?_text_eq_some_iff {n m : Number} :
    ofText? n.text = some m ↔ n.Settled ∧ m = n := by
  rw [ofText?_text, Option.ite_none_right_eq_some, Option.some.injEq, @eq_comm _ n]

end Number

end DocQuery
