import DocQuery.Number.Decimal
import Mathlib.Data.List.Basic
import Mathlib.Data.List.TakeWhile

/-!
# DocQuery.Proofs.LiteralText

What integers and decimal literals look like.

`IsInteger` and `Literal.Spells` describe the texts part by part, from the sign to the power of
ten, without reading them.

## Main results

`integer?_eq_some_iff`: a text is read as an integer just if it is spelled like one.
`Literal.ofText?_eq_some_iff`: a text is read as a literal just if it is spelled like one.
-/

namespace DocQuery

/-! ### Spelling -/

/-- A sign, which may be missing, and whether it is a minus sign. -/
inductive IsSign : List Char → Bool → Prop
  | missing : IsSign [] false
  | plus : IsSign ['+'] false
  | minus : IsSign ['-'] true

def AreDigits (text : List Char) : Prop :=
  ∀ c ∈ text, c.isDigit = true

/-- A sign and one or more digits. -/
inductive IsInteger : List Char → Int → Prop
  | mk {sign digits : List Char} {negative : Bool} (signed : IsSign sign negative)
      (nonempty : digits ≠ []) (areDigits : AreDigits digits) :
      IsInteger (sign ++ digits)
        (if negative then -(digitsValue digits : Int) else digitsValue digits)

/-- Digits before and after a point, at least one of them; without a point there are none after
it. -/
inductive IsMantissa : List Char → (whole fraction : List Char) → Prop
  | plain {whole : List Char} (nonempty : whole ≠ []) (areDigits : AreDigits whole) :
      IsMantissa whole whole []
  | pointed {whole fraction : List Char} (nonempty : whole ++ fraction ≠ [])
      (areDigits : AreDigits (whole ++ fraction)) :
      IsMantissa (whole ++ '.' :: fraction) whole fraction

/-- A power of ten, which may be missing. -/
inductive IsPower : List Char → Int → Prop
  | missing : IsPower [] 0
  | marked {mark : Char} {text : List Char} {exponent : Int} (isMark : mark = 'e' ∨ mark = 'E')
      (isInteger : IsInteger text exponent) : IsPower (mark :: text) exponent

/-- The texts that spell a literal. -/
inductive Literal.Spells (l : Literal) : List Char → Prop
  | mk {sign mantissa power : List Char} (signed : IsSign sign l.negative)
      (isMantissa : IsMantissa mantissa l.whole l.fraction) (isPower : IsPower power l.exponent) :
      Spells l (sign ++ (mantissa ++ power))

/-! ### Signs -/

theorem IsSign.mem {sign : List Char} {negative : Bool} (signed : IsSign sign negative) {c : Char}
    (member : c ∈ sign) : c ∈ ['+', '-'] := by
  cases signed with
  | missing => cases member
  | plus => exact List.mem_append_left ['-'] member
  | minus => exact List.mem_append_right ['+'] member

/-- What is split off is a sign. -/
theorem isSign_of_splitSign {text rest : List Char} {negative : Bool}
    (split : splitSign text = (negative, rest)) :
    ∃ sign, IsSign sign negative ∧ text = sign ++ rest := by
  unfold splitSign at split
  split at split <;> cases split
  · exact ⟨['-'], .minus, rfl⟩
  · exact ⟨['+'], .plus, rfl⟩
  · exact ⟨[], .missing, rfl⟩

/-- A sign is split off where the rest does not start with another one. -/
theorem splitSign_append {sign rest : List Char} {negative : Bool} (signed : IsSign sign negative)
    (unsigned : ∀ c ∈ rest.head?, c ≠ '+' ∧ c ≠ '-') :
    splitSign (sign ++ rest) = (negative, rest) := by
  cases signed with
  | missing =>
    rw [List.nil_append]
    unfold splitSign
    split
    next => exact absurd rfl (unsigned '-' rfl).2
    next => exact absurd rfl (unsigned '+' rfl).1
    next => rfl
  | plus => rfl
  | minus => rfl

theorem ne_sign_of_isDigit {c : Char} (digit : c.isDigit = true) : c ≠ '+' ∧ c ≠ '-' := by
  constructor <;> (rintro rfl; revert digit; decide)

/-! ### Integers -/

theorem integer?_eq_some_iff {text : List Char} {value : Int} :
    integer? text = some value ↔ IsInteger text value := by
  constructor
  · intro read
    obtain ⟨⟨negative, digits⟩, parts⟩ : ∃ parts, splitSign text = parts := ⟨_, rfl⟩
    obtain ⟨sign, signed, rfl⟩ := isSign_of_splitSign parts
    simp only [integer?, parts] at read
    split at read
    next holds =>
      cases read
      exact .mk signed holds.1 (List.all_eq_true.mp holds.2)
    next => cases read
  · rintro ⟨signed, nonempty, areDigits⟩
    have parts := splitSign_append signed fun c first =>
      ne_sign_of_isDigit (areDigits c (List.mem_of_mem_head? first))
    simp only [integer?, parts]
    rw [if_pos ⟨nonempty, List.all_eq_true.mpr areDigits⟩]

/-- No other characters than digits and signs stand in an integer. -/
theorem IsInteger.mem {text : List Char} {value : Int} (isInteger : IsInteger text value) {c : Char}
    (member : c ∈ text) : c.isDigit = true ∨ c ∈ ['+', '-'] := by
  cases isInteger with
  | mk signed _ areDigits =>
    rcases List.mem_append.mp member with inSign | inDigits
    · exact .inr (signed.mem inSign)
    · exact .inl (areDigits c inDigits)

/-! ### Literals -/

theorem ne_mark_of_isDigit {c : Char} (digit : c.isDigit = true) :
    (c != 'e' && c != 'E') = true := by
  rw [Bool.and_eq_true, bne_iff_ne, bne_iff_ne]
  constructor <;> (rintro rfl; revert digit; decide)

theorem ne_point_of_isDigit {c : Char} (digit : c.isDigit = true) : (c != '.') = true := by
  rw [bne_iff_ne]
  rintro rfl
  revert digit
  decide

namespace IsMantissa

variable {mantissa whole fraction : List Char}

theorem nonempty (isMantissa : IsMantissa mantissa whole fraction) : whole ++ fraction ≠ [] := by
  cases isMantissa with
  | plain nonempty => rwa [List.append_nil]
  | pointed nonempty => exact nonempty

theorem areDigits (isMantissa : IsMantissa mantissa whole fraction) :
    AreDigits (whole ++ fraction) := by
  cases isMantissa with
  | plain _ areDigits => rwa [List.append_nil]
  | pointed _ areDigits => exact areDigits

theorem isDigit_or_point (isMantissa : IsMantissa mantissa whole fraction) :
    ∀ c ∈ mantissa, c.isDigit = true ∨ c = '.' := by
  intro c member
  cases isMantissa with
  | plain _ areDigits => exact .inl (areDigits c member)
  | pointed _ areDigits =>
    rcases List.mem_append.mp member with inWhole | inRest
    · exact .inl (areDigits c (List.mem_append_left _ inWhole))
    · rcases List.mem_cons.mp inRest with isPoint | inFraction
      · exact .inr isPoint
      · exact .inl (areDigits c (List.mem_append_right _ inFraction))

theorem ne_nil (isMantissa : IsMantissa mantissa whole fraction) : mantissa ≠ [] := by
  cases isMantissa with
  | plain nonempty => exact nonempty
  | pointed => exact List.append_ne_nil_of_right_ne_nil _ (List.cons_ne_nil _ _)

/-- Neither sign nor mark of a power stands in a mantissa. -/
theorem ne_mark (isMantissa : IsMantissa mantissa whole fraction) :
    ∀ c ∈ mantissa, (c != 'e' && c != 'E') = true := by
  intro c member
  rcases isMantissa.isDigit_or_point c member with digit | rfl
  · exact ne_mark_of_isDigit digit
  · decide

theorem ne_sign (isMantissa : IsMantissa mantissa whole fraction) :
    ∀ c ∈ mantissa, c ≠ '+' ∧ c ≠ '-' := by
  intro c member
  rcases isMantissa.isDigit_or_point c member with digit | rfl
  · exact ne_sign_of_isDigit digit
  · decide

/-- The digits before the point, and those after it. -/
theorem split_point (isMantissa : IsMantissa mantissa whole fraction) :
    mantissa.takeWhile (· != '.') = whole ∧ (mantissa.dropWhile (· != '.')).drop 1 = fraction := by
  have pointless : ∀ c ∈ whole, (c != '.') = true := fun c member =>
    ne_point_of_isDigit (isMantissa.areDigits c (List.mem_append_left _ member))
  cases isMantissa with
  | plain =>
    rw [List.takeWhile_eq_self_iff.mpr pointless, List.dropWhile_eq_nil_iff.mpr pointless]
    exact ⟨rfl, rfl⟩
  | pointed =>
    rw [List.takeWhile_append_of_pos pointless, List.dropWhile_append_of_pos pointless]
    simp

/-- Text that was split at its first point and holds digits only besides. -/
theorem of_split_point (nonempty : mantissa.takeWhile (· != '.') ++
      (mantissa.dropWhile (· != '.')).drop 1 ≠ [])
    (areDigits : AreDigits (mantissa.takeWhile (· != '.') ++
      (mantissa.dropWhile (· != '.')).drop 1)) :
    IsMantissa mantissa (mantissa.takeWhile (· != '.'))
      ((mantissa.dropWhile (· != '.')).drop 1) := by
  have whole := List.takeWhile_append_dropWhile (p := (· != '.')) (l := mantissa)
  -- Without a point nothing is left behind the digits.
  cases rest : mantissa.dropWhile (· != '.') with
  | nil =>
    rw [rest, List.drop_nil, List.append_nil] at nonempty areDigits
    rw [rest, List.append_nil] at whole
    rw [whole] at nonempty areDigits ⊢
    exact .plain nonempty areDigits
  | cons c fraction =>
    have isPoint : c = '.' := by
      have stopped := List.head_dropWhile_not (· != '.') (l := mantissa) (by simp [rest])
      simpa [rest] using stopped
    rw [rest, isPoint] at whole
    rw [rest] at nonempty areDigits
    conv => arg 1; rw [← whole]
    exact .pointed nonempty areDigits

end IsMantissa

/-- A power of ten starts at its mark, so nothing of it belongs to the digits. -/
theorem IsPower.split_mark {power : List Char} {exponent : Int} (isPower : IsPower power exponent) :
    power.takeWhile (fun c => c != 'e' && c != 'E') = [] ∧
      power.dropWhile (fun c => c != 'e' && c != 'E') = power := by
  cases isPower with
  | missing => exact ⟨rfl, rfl⟩
  | marked isMark => rcases isMark with rfl | rfl <;> exact ⟨rfl, rfl⟩

theorem IsPower.mem {power : List Char} {exponent : Int} (isPower : IsPower power exponent)
    {c : Char} (member : c ∈ power) : c.isDigit = true ∨ c ∈ ['+', '-', '.', 'e', 'E'] := by
  cases isPower with
  | missing => cases member
  | marked isMark isInteger =>
    rcases List.mem_cons.mp member with rfl | inInteger
    · exact .inr (by simpa using .inr (.inr (.inr isMark)))
    · exact (isInteger.mem inInteger).imp_right fun isSign =>
        List.mem_append_left ['.', 'e', 'E'] isSign

/-- No other letter than that of the power of ten stands in a literal. -/
theorem Literal.Spells.mem {l : Literal} {text : List Char} (spells : l.Spells text) {c : Char}
    (member : c ∈ text) : c.isDigit = true ∨ c ∈ ['+', '-', '.', 'e', 'E'] := by
  obtain @⟨sign, mantissa, power, signed, isMantissa, isPower⟩ := spells
  rcases List.mem_append.mp member with inSign | inRest
  · exact .inr (List.mem_append_left ['.', 'e', 'E'] (signed.mem inSign))
  · rcases List.mem_append.mp inRest with inMantissa | inPower
    · refine (isMantissa.isDigit_or_point c inMantissa).imp_right ?_
      rintro rfl
      decide
    · exact isPower.mem inPower

/-- A text is read as a literal just if it is spelled like one. -/
theorem Literal.ofText?_eq_some_iff {text : List Char} {l : Literal} :
    ofText? text = some l ↔ l.Spells text := by
  constructor
  · intro read
    obtain ⟨⟨negative, unsigned⟩, parts⟩ : ∃ parts, splitSign text = parts := ⟨_, rfl⟩
    obtain ⟨sign, signed, rfl⟩ := isSign_of_splitSign parts
    simp only [ofText?, parts] at read
    split at read
    next holds =>
      have isMantissa := IsMantissa.of_split_point holds.1 (List.all_eq_true.mp holds.2)
      have whole := List.takeWhile_append_dropWhile
        (p := fun c => c != 'e' && c != 'E') (l := unsigned)
      rw [← whole]
      -- What follows the digits is nothing or a mark with an integer.
      split at read
      next atEnd =>
        cases read
        rw [atEnd]
        exact .mk signed isMantissa .missing
      next mark power atMark =>
        obtain ⟨exponent, isInteger, rfl⟩ := Option.map_eq_some_iff.mp read
        have isMark : mark = 'e' ∨ mark = 'E' := by
          have stopped := List.head_dropWhile_not (fun c => c != 'e' && c != 'E')
            (l := unsigned) (by simp [atMark])
          simpa [atMark, or_iff_not_imp_left] using stopped
        rw [atMark]
        exact .mk signed isMantissa (.marked isMark (integer?_eq_some_iff.mp isInteger))
    next => cases read
  · obtain ⟨negative, whole, fraction, exponent⟩ := l
    rintro @⟨sign, mantissa, power, signed, isMantissa, isPower⟩
    dsimp only at signed isMantissa isPower
    -- The digits start with no sign, so the sign that is split off is that of the literal.
    have parts : splitSign (sign ++ (mantissa ++ power)) = (negative, mantissa ++ power) := by
      apply splitSign_append signed
      intro c first
      rw [List.head?_append_of_ne_nil _ isMantissa.ne_nil] at first
      exact isMantissa.ne_sign c (List.mem_of_mem_head? first)
    have digits : whole ++ fraction ≠ [] ∧ (whole ++ fraction).all Char.isDigit = true :=
      ⟨isMantissa.nonempty, List.all_eq_true.mpr isMantissa.areDigits⟩
    simp only [ofText?, parts, List.takeWhile_append_of_pos isMantissa.ne_mark,
      List.dropWhile_append_of_pos isMantissa.ne_mark, isMantissa.split_point, List.append_nil,
      isPower.split_mark]
    rw [if_pos digits]
    cases isPower with
    | missing => rfl
    | marked _ isInteger => simp only [integer?_eq_some_iff.mpr isInteger, Option.map_some]

end DocQuery
