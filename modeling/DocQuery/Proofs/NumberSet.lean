import DocQuery.Proofs.DecimalValue
import DocQuery.Proofs.Nesting
import DocQuery.Proofs.UpdateMeaning

/-!
# DocQuery.Proofs.NumberSet

The members of a number set.

A number set is compiled from the numbers of an operand by dropping the texts that were seen
before. Texts tell numbers apart that are equal: `1` and `1.0`, or the two zeros.

## Main results

`pairwise_eraseDups`: what is kept stands in the order of first occurrence.
`setOperand_keeps_numbers`: a number set holds the given numbers, each text once, and holds no
number twice just if no number is given in two ways.
-/

namespace DocQuery

/-! ### First occurrences -/

section FirstOccurrences

variable {α : Type} [DecidableEq α]

/-- Dropping other elements does not change which of two occurs first. -/
theorem idxOf_lt_of_filter {keep : α → Bool} {items : List α} {s t : α}
    (first : (items.filter keep).idxOf s < (items.filter keep).idxOf t) (keepFirst : keep s = true)
    (keepSecond : keep t = true) : items.idxOf s < items.idxOf t := by
  induction items with
  | nil => exact first
  | cons head rest ih =>
    by_cases isFirst : head = s
    · subst isFirst
      rw [List.filter_cons_of_pos keepFirst, List.idxOf_cons_self] at first
      have other : head ≠ t := by
        rintro rfl
        simp at first
      rw [List.idxOf_cons_self, List.idxOf_cons_ne _ other]
      exact Nat.succ_pos _
    by_cases isSecond : head = t
    · subst isSecond
      rw [List.filter_cons_of_pos keepSecond, List.idxOf_cons_self] at first
      exact absurd first (Nat.not_lt_zero _)
    -- Any other element in front counts for both, whether it is kept or not.
    rw [List.idxOf_cons_ne _ isFirst, List.idxOf_cons_ne _ isSecond]
    apply Nat.succ_lt_succ
    apply ih
    by_cases kept : keep head = true
    · rw [List.filter_cons_of_pos kept, List.idxOf_cons_ne _ isFirst,
        List.idxOf_cons_ne _ isSecond] at first
      exact Nat.lt_of_succ_lt_succ first
    · rwa [List.filter_cons_of_neg kept] at first

/-- What is kept stands in the order of first occurrence. -/
theorem pairwise_eraseDups : ∀ items : List α,
    items.eraseDups.Pairwise fun s t => items.idxOf s < items.idxOf t
  | [] => .nil
  | head :: rest => by
    rw [List.eraseDups_cons, List.pairwise_cons]
    have kept : ∀ t ∈ (rest.filter fun item => !item == head).eraseDups, (!t == head) = true :=
      fun t member => List.of_mem_filter (p := fun item => !item == head)
        (List.mem_eraseDups.mp member)
    have other : ∀ t ∈ (rest.filter fun item => !item == head).eraseDups, head ≠ t := by
      intro t member same
      simpa [same] using kept t member
    constructor
    · intro t member
      rw [List.idxOf_cons_self, List.idxOf_cons_ne _ (other t member)]
      exact Nat.succ_pos _
    · refine (pairwise_eraseDups _).imp_of_mem fun inFirst inSecond first => ?_
      rw [List.idxOf_cons_ne _ (other _ inFirst), List.idxOf_cons_ne _ (other _ inSecond)]
      exact Nat.succ_lt_succ (idxOf_lt_of_filter first (kept _ inFirst) (kept _ inSecond))
termination_by items => items.length
decreasing_by exact Nat.lt_succ_of_le (List.length_filter_le _ _)

end FirstOccurrences

/-! ### Members -/

theorem number?_eq_some_iff (member : Document) (n : Number) :
    member.number? = some n ↔ member = .number n := by
  cases member <;> simp [Document.number?]

/-- A number set is made of numbers, their texts in the order of first occurrence. -/
theorem numbers_of_setOf? {members : List Document} {texts : List String}
    (made : setOf? members = some (.numberSet texts)) : ∃ numbers : List Number,
      members = numbers.map .number ∧ texts = (numbers.map Number.text).eraseDups := by
  unfold setOf? at made
  split at made
  next => cases made
  next =>
    split at made
    -- Members that are all strings make a set of strings.
    next => cases made
    next numbers _ read =>
      cases made
      exact ⟨numbers, (mapM_eq_some_iff_eq_map number?_eq_some_iff).mp read, rfl⟩
    next => cases made

/-- Whether two texts are decimal literals for the same number. -/
def AreEqual (s t : String) : Prop :=
  ∃ q, Denotes s q ∧ Denotes t q

theorem AreEqual.symm {s t : String} (equal : AreEqual s t) : AreEqual t s := by
  obtain ⟨q, left, right⟩ := equal
  exact ⟨q, right, left⟩

namespace Number

variable {n m : Number}

theorem areEqual_text_iff : AreEqual n.text m.text ↔ n.value = m.value := by
  constructor
  · rintro ⟨q, left, right⟩
    exact (n.denotes_text.unique left).trans (right.unique m.denotes_text)
  · exact fun same => ⟨n.value, n.denotes_text, same ▸ m.denotes_text⟩

/-- Equal numbers are those of one canonical form. -/
theorem areEqual_text_iff_decimal :
    AreEqual n.text m.text ↔ Decimal.ofText? n.text = Decimal.ofText? m.text := by
  obtain ⟨d, read, isValue⟩ := n.decimal_text
  obtain ⟨d', read', isValue'⟩ := m.decimal_text
  rw [areEqual_text_iff, ← isValue, ← isValue', Decimal.value_injective.eq_iff, read, read',
    Option.some.injEq]

end Number

/-- A number set holds the text of each given number, each text once and in the order of first
occurrence. Two of its members are equal just if a number is given both as a whole number and as a
double, or as both zeros. -/
theorem setOperand_keeps_numbers {path : String} {operand : Document} {texts : List String}
    (made : setOperand path operand = .ok (.numberSet texts)) :
    ∃ numbers : List Number, members? operand = some (numbers.map .number) ∧
      (∀ text, text ∈ texts ↔ ∃ n ∈ numbers, n.text = text) ∧
      (∀ n ∈ numbers, ∃ text ∈ texts, AreEqual n.text text) ∧
      texts.Pairwise (fun s t =>
        (numbers.map Number.text).idxOf s < (numbers.map Number.text).idxOf t) ∧
      (∀ s ∈ texts, ∀ t ∈ texts, AreEqual s t ↔ Decimal.ofText? s = Decimal.ofText? t) ∧
      (texts.Pairwise (fun s t => ¬ AreEqual s t) ↔
        ∀ n ∈ numbers, ∀ m ∈ numbers, n.AreApart m → n.value ≠ m.value) := by
  obtain ⟨members, listed, made⟩ := Option.bind_eq_some_iff.mp (setOperand_ok made)
  obtain ⟨numbers, rfl, rfl⟩ := numbers_of_setOf? made
  have held : ∀ text, text ∈ (numbers.map Number.text).eraseDups ↔ ∃ n ∈ numbers, n.text = text :=
    fun text => List.mem_eraseDups.trans List.mem_map
  have inOrder := pairwise_eraseDups (numbers.map Number.text)
  refine ⟨numbers, listed, held, ?_, inOrder, ?_, ?_⟩
  · intro n given
    exact ⟨n.text, (held _).mpr ⟨n, given, rfl⟩, Number.areEqual_text_iff.mpr rfl⟩
  · intro s inFirst t inSecond
    obtain ⟨n, -, rfl⟩ := (held _).mp inFirst
    obtain ⟨m, -, rfl⟩ := (held _).mp inSecond
    exact Number.areEqual_text_iff_decimal
  constructor
  · intro different n inFirst m inSecond apart same
    have otherText : n.text ≠ m.text := Number.text_injective.ne apart.ne
    have symmetric : Std.Symm fun s t => ¬ AreEqual s t :=
      ⟨fun _ _ other equal => other equal.symm⟩
    exact different.forall ((held _).mpr ⟨n, inFirst, rfl⟩)
      ((held _).mpr ⟨m, inSecond, rfl⟩) otherText (Number.areEqual_text_iff.mpr same)
  · intro different
    -- Members at different places have different texts, so they are different numbers.
    refine inOrder.imp_of_mem fun inFirst inSecond first equal => ?_
    obtain ⟨n, given, rfl⟩ := (held _).mp inFirst
    obtain ⟨m, given', rfl⟩ := (held _).mp inSecond
    have other : n ≠ m := by
      rintro rfl
      exact lt_irrefl _ first
    have same := Number.areEqual_text_iff.mp equal
    exact different n given m given' (Number.areApart_of_value_eq same other) same

/-- Three, two and a half, and three again. -/
def threeTwice : List Number :=
  [.whole 3 (by decide), .double ⟨false, 5629499534213120, -51, by decide⟩,
    .whole 3 (by decide)]

/-- No number is given in two ways here, so the set holds none twice. -/
theorem threeTwice_is_kept_once :
    setOperand "a" (.array (threeTwice.map .number)) = .ok (.numberSet ["3", "2.5"]) ∧
      ["3", "2.5"].Pairwise fun s t => ¬ AreEqual s t := by
  have made : setOperand "a" (.array (threeTwice.map .number)) =
      .ok (.numberSet ["3", "2.5"]) := by decide +kernel
  refine ⟨made, ?_⟩
  obtain ⟨numbers, listed, -, -, -, -, different⟩ := setOperand_keeps_numbers made
  obtain rfl : threeTwice = numbers :=
    List.map_injective_iff.mpr (fun _ _ => Document.number.inj) (Option.some.inj listed)
  refine different.mpr fun n given m given' apart same => apart.ne ?_
  have sameDecimal := Number.areEqual_text_iff_decimal.mp (Number.areEqual_text_iff.mpr same)
  have each : ∀ n ∈ threeTwice, ∀ m ∈ threeTwice,
      Decimal.ofText? n.text = Decimal.ofText? m.text → n = m := by decide +kernel
  exact each n given m given' sameDecimal

/-- Two, as a whole number and as a double. -/
def twoInTwoWays : List Number :=
  [.whole 2 (by decide), .double ⟨false, 4503599627370496, -51, by decide⟩]

/-- Both are kept, although they are equal. -/
theorem twoInTwoWays_is_kept_twice :
    setOperand "a" (.array (twoInTwoWays.map .number)) = .ok (.numberSet ["2", "2.0"]) ∧
      AreEqual "2" "2.0" ∧ Decimal.ofText? "2" = Decimal.ofText? "2.0" := by
  have made : setOperand "a" (.array (twoInTwoWays.map .number)) =
      .ok (.numberSet ["2", "2.0"]) := by decide +kernel
  have sameDecimal : Decimal.ofText? "2" = Decimal.ofText? "2.0" := by decide +kernel
  have whole : twoInTwoWays[0].text = "2" := by decide +kernel
  have double : twoInTwoWays[1].text = "2.0" := by decide +kernel
  refine ⟨made, ?_, sameDecimal⟩
  rw [← whole, ← double, Number.areEqual_text_iff_decimal, whole, double]
  exact sameDecimal

end DocQuery
