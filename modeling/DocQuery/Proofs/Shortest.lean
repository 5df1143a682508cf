import DocQuery.Proofs.Rounding

/-!
# DocQuery.Proofs.Shortest

The shortest decimal of a double reads back as that double.

The search over the grids stops only where a decimal reads back, and the decimal that is left when
no grid does is the double itself, which is rounded to itself.

## Main results

`Binary64.ofScaled?_shortest`: the shortest decimal reads back, however ties are broken.
`Binary64.shortest_toEven`: how ties are broken makes no difference where there are none.
-/

namespace DocQuery

/-! ### Decimals in canonical form -/

namespace Decimal

theorem stripZeros_spec (coefficient : Nat) (exponent : ℤ) : ∃ more : Nat,
    coefficient = (stripZeros coefficient exponent).1 * 10 ^ more ∧
      (stripZeros coefficient exponent).2 = exponent + more := by
  fun_induction stripZeros coefficient exponent with
  | case1 coefficient exponent more ih =>
    obtain ⟨others, value, raised⟩ := ih
    refine ⟨others + 1, ?_, ?_⟩
    · have divisible := Nat.dvd_of_mod_eq_zero more.1
      rw [Nat.pow_succ, ← Nat.mul_assoc, ← value, Nat.div_mul_cancel divisible]
    · rw [raised]
      omega
  | case2 coefficient exponent done => exact ⟨0, by simp, by simp⟩

theorem stripZeros_mul_pow {coefficient : Nat} (nonzero : coefficient ≠ 0) (exponent : ℤ)
    (more : Nat) : stripZeros (coefficient * 10 ^ more) exponent =
      stripZeros coefficient (exponent + more) := by
  induction more generalizing exponent with
  | zero => simp
  | succ more ih =>
    have divisible : coefficient * 10 ^ (more + 1) % 10 = 0 := by
      rw [Nat.pow_succ, ← Nat.mul_assoc, Nat.mul_mod_left]
    have quotient : coefficient * 10 ^ (more + 1) / 10 = coefficient * 10 ^ more := by
      rw [Nat.pow_succ, ← Nat.mul_assoc, Nat.mul_div_cancel _ (by decide)]
    have positive : coefficient * 10 ^ (more + 1) ≠ 0 := by positivity
    rw [stripZeros, if_pos ⟨divisible, positive⟩, quotient, ih]
    congr 1
    omega

/-- What is taken from the coefficient is added to the exponent. -/
theorem ofScaled_spec {coefficient : Nat} (nonzero : coefficient ≠ 0) (negative : Bool)
    (exponent : ℤ) : ∃ more : Nat, (ofScaled negative coefficient exponent).negative = negative ∧
      coefficient = (ofScaled negative coefficient exponent).coefficient * 10 ^ more ∧
      (ofScaled negative coefficient exponent).exponent = exponent + more := by
  obtain ⟨more, value, raised⟩ := stripZeros_spec coefficient exponent
  rw [ofScaled, dif_pos nonzero]
  exact ⟨more, rfl, value, raised⟩

/-- Zeros at the end of the coefficient count as powers of ten. -/
theorem ofScaled_mul_pow {negative : Bool} {coefficient : Nat} (nonzero : coefficient ≠ 0)
    (exponent : ℤ) (more : Nat) : ofScaled negative (coefficient * 10 ^ more) exponent =
      ofScaled negative coefficient (exponent + more) := by
  have positive : coefficient * 10 ^ more ≠ 0 := by positivity
  simp only [ofScaled, dif_pos nonzero, dif_pos positive, stripZeros_mul_pow nonzero]

theorem ofScaled_self (d : Decimal) (nonzero : d.coefficient ≠ 0) :
    ofScaled d.negative d.coefficient d.exponent = d := by
  have unstripped : stripZeros d.coefficient d.exponent = (d.coefficient, d.exponent) := by
    rw [stripZeros, if_neg]
    intro divisible
    rcases d.canonical with indivisible | ⟨-, zero, -⟩
    · exact indivisible divisible.1
    · exact nonzero zero
  simp only [ofScaled, dif_pos nonzero, unstripped]

end Decimal

namespace Binary64

variable {x : Binary64} {tie : Tie}

/-! ### The search -/

theorem isReadFrom_iff {coefficient : Nat} {scale : ℤ} :
    x.isReadFrom coefficient scale = true ↔ ofScaled? x.negative coefficient scale = some x :=
  decide_eq_true_iff

/-- What is found on a grid reads back. -/
theorem isReadFrom_of_onGrid? {scale : ℤ} {d : Decimal} (found : x.onGrid? tie scale = some d) :
    ∃ coefficient, x.isReadFrom coefficient scale = true ∧
      d = .ofScaled x.negative coefficient scale := by
  simp only [onGrid?] at found
  split at found
  next below above =>
    cases found
    split
    · exact ⟨_, above, rfl⟩
    · exact ⟨_, below, rfl⟩
  next below _ =>
    cases found
    exact ⟨_, below, rfl⟩
  next _ above =>
    cases found
    exact ⟨_, above, rfl⟩
  next => cases found

/-- All digits of a double read back. -/
theorem isReadFrom_exactDecimal (nonzero : x.isZero = false) :
    x.isReadFrom (x.num * Nat.pow 5 (-x.exponent).toNat) (min x.exponent 0) = true := by
  rw [isReadFrom_iff]
  apply ofScaled?_of_value nonzero
  have up : (min x.exponent 0).toNat = 0 := by omega
  have down : (-min x.exponent 0).toNat = (-x.exponent).toNat := by omega
  have tens : (10 : ℚ) ^ min x.exponent 0 =
      1 / (2 ^ (-x.exponent).toNat * 5 ^ (-x.exponent).toNat) := by
    rw [zpow_eq_div (by norm_num), up, down, pow_zero, ← mul_pow]
    norm_num
  rw [← num_div_den, tens, den, Nat.pow_eq, Nat.pow_eq]
  push_cast
  field_simp

theorem isReadFrom_shortest (tie : Tie) (nonzero : x.isZero = false) : ∃ coefficient scale,
    x.isReadFrom coefficient scale = true ∧
      x.shortest tie = .ofScaled x.negative coefficient scale := by
  rw [shortest, if_neg (by simp [nonzero])]
  cases search : (List.range 17).findSome? fun (more : Nat) => x.onGrid? tie (x.log10 - more) with
  | none => exact ⟨_, _, isReadFrom_exactDecimal nonzero, rfl⟩
  | some d =>
    obtain ⟨more, -, found⟩ := List.exists_of_findSome?_eq_some search
    obtain ⟨coefficient, reads, made⟩ := isReadFrom_of_onGrid? found
    exact ⟨coefficient, _, reads, made⟩

/-- The shortest decimal has the sign of the double and reads back as it. -/
theorem ofScaled?_shortest (tie : Tie) (nonzero : x.isZero = false) :
    (x.shortest tie).negative = x.negative ∧ (x.shortest tie).coefficient ≠ 0 ∧
      ofScaled? x.negative (x.shortest tie).coefficient (x.shortest tie).exponent = some x := by
  obtain ⟨coefficient, scale, reads, made⟩ := isReadFrom_shortest tie nonzero
  rw [isReadFrom_iff] at reads
  have coefficientNe := (magnitude_of_ofScaled? nonzero reads).1
  obtain ⟨more, sign, value, raised⟩ := Decimal.ofScaled_spec coefficientNe x.negative scale
  rw [made]
  refine ⟨sign, ?_, ?_⟩
  · intro zero
    rw [zero, Nat.zero_mul] at value
    exact coefficientNe value
  · rw [raised, ← ofScaled?_mul_pow, ← value]
    exact reads

/-! ### Ties -/

/-- Whether a double stands halfway between two multiples of a power of ten. -/
def IsHalfway (x : Binary64) (scale : ℤ) : Prop :=
  2 * (x.num * Nat.pow 10 (-scale).toNat % (x.den * Nat.pow 10 scale.toNat)) =
    x.den * Nat.pow 10 scale.toNat

theorem onGrid?_toEven {scale : ℤ} (apart : ¬ x.IsHalfway scale) :
    x.onGrid? .toEven scale = x.onGrid? .up scale := by
  rw [IsHalfway] at apart
  simp only [onGrid?, apart, false_and, or_false]

/-- How ties are broken makes no difference where there are none. -/
theorem shortest_toEven (apart : ∀ more : Nat, more < 17 → ¬ x.IsHalfway (x.log10 - more)) :
    x.shortest .toEven = x.shortest .up := by
  have same : ∀ grids : List Nat, (∀ more ∈ grids, more < 17) →
      grids.findSome? (fun (more : Nat) => x.onGrid? .toEven (x.log10 - more)) =
        grids.findSome? fun (more : Nat) => x.onGrid? .up (x.log10 - more) := by
    intro grids few
    induction grids with
    | nil => rfl
    | cons more rest ih =>
      obtain ⟨here, others⟩ := List.forall_mem_cons.mp few
      rw [List.findSome?_cons, List.findSome?_cons, onGrid?_toEven (apart more here), ih others]
  rw [shortest, shortest, same _ fun more => List.mem_range.mp]

end Binary64

end DocQuery
