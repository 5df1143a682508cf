import DocQuery.Placeholder
import Mathlib.Data.List.Perm.Subperm
import Mathlib.Data.List.Nodup

/-!
# DocQuery.Proofs.TokenChoice

Which token is chosen for a name or a value.

## Main result

`tokenFor_spec`: the token is the first candidate that is free or bound to the value already.

## Proof strategy

The candidates of one base differ, so a map of `n` entries binds at most `n` of them and the
search never runs past its last look.
-/

namespace DocQuery

/-! ### Candidates -/

theorem digitsOf_injective {m n : Nat} (same : digitsOf m = digitsOf n) : m = n := by
  have values := congrArg (fun digits => Nat.ofDigitChars 10 digits 0) same
  simpa only [digitsOf, Nat.ofDigitChars_ten_toDigits] using values

theorem toList_candidate_succ (base : Token) (n : Nat) :
    (candidate base (n + 1)).toList = base.toList ++ '_' :: digitsOf (n + 1) := by
  simp [candidate]

theorem candidate_injective (base : Token) {m n : Nat}
    (same : candidate base m = candidate base n) : m = n := by
  have texts := congrArg String.toList same
  cases m with
  | zero =>
    cases n with
    | zero => rfl
    | succ n =>
      -- A numbered candidate is longer than its base.
      rw [toList_candidate_succ] at texts
      simp [candidate] at texts
  | succ m =>
    cases n with
    | zero =>
      rw [toList_candidate_succ] at texts
      simp [candidate] at texts
    | succ n =>
      rw [toList_candidate_succ, toList_candidate_succ] at texts
      have numbers := List.append_cancel_left texts
      simp only [List.cons.injEq, true_and] at numbers
      exact digitsOf_injective numbers

/-! ### The entries of a map -/

namespace Ascending

variable {α : Type} {bound : Option String}

theorem length_keys : ∀ {bound : Option String} (m : Ascending α bound),
    m.keys.length = m.size
  | _, .nil => rfl
  | _, .cons _ _ _ rest => by
    have tail := length_keys rest
    simp only [keys, List.length_map] at tail
    simp [keys, toList, size, tail]

theorem mem_keys_iff (key : String) : ∀ {bound : Option String} (m : Ascending α bound),
    key ∈ m.keys ↔ m.get? key ≠ none
  | _, .nil => by simp [keys, toList]
  | _, .cons k _ value rest => by
    have tail := mem_keys_iff key rest
    simp only [keys] at tail
    by_cases here : k = key
    · simp [keys, toList, get?, here]
    · simp [keys, toList, get?, here, Ne.symm here, tail]

/-- A map binds no more keys than it has entries. -/
theorem length_le_size (m : KeyMap α) {keys : List String} (distinct : keys.Nodup)
    (bound : ∀ key ∈ keys, m.get? key ≠ none) : keys.length ≤ m.size := by
  have included : keys ⊆ m.keys := fun key member => (mem_keys_iff key m).mpr (bound key member)
  rw [← length_keys m]
  exact (List.subperm_of_subset distinct included).length_le

end Ascending

/-! ### The search -/

section Search

variable {α : Type} [DecidableEq α] {m : KeyMap α} {value : α} {base token : Token}

theorem suits_iff :
    suits m value token = true ↔ m.get? token = none ∨ m.get? token = some value := by
  unfold suits
  cases m.get? token <;> simp

theorem suits_eq_false_iff :
    suits m value token = false ↔ ∃ other, m.get? token = some other ∧ other ≠ value := by
  unfold suits
  cases m.get? token <;> simp

/-- The search passes over taken candidates only, and stops early only at a suitable one. -/
theorem firstSuitable_eq (m : KeyMap α) (value : α) (base : Token) (clashes index : Nat) :
    ∃ n, firstSuitable m value base clashes index = candidate base n ∧
      index ≤ n ∧ n ≤ index + clashes ∧
      (∀ k, index ≤ k → k < n → suits m value (candidate base k) = false) ∧
      (n < index + clashes → suits m value (candidate base n) = true) := by
  induction clashes generalizing index with
  | zero => exact ⟨index, rfl, by omega, by omega, fun k low high => by omega, by omega⟩
  | succ clashes ih =>
    rw [firstSuitable]
    split
    -- The candidate suits, or the search goes on with the next one.
    next fits => exact ⟨index, rfl, by omega, by omega, fun k low high => by omega, fun _ => fits⟩
    next taken =>
      obtain ⟨n, found, above, below, passed, early⟩ := ih (index + 1)
      refine ⟨n, found, by omega, by omega, ?_, fun _ => early (by omega)⟩
      intro k low high
      by_cases here : k = index
      · -- The candidate that was passed over in this step.
        subst here
        simpa using taken
      · exact passed k (by omega) high

/-- The token is the first candidate that is free or bound to the value already, and it is
among the first `m.size + 1`. -/
theorem tokenFor_spec (m : KeyMap α) (base : Token) (value : α) :
    ∃ n, tokenFor m base value = candidate base n ∧ n ≤ m.size ∧
      (∀ k, k < n → suits m value (candidate base k) = false) ∧
      suits m value (tokenFor m base value) = true := by
  obtain ⟨n, found, -, below, passed, early⟩ := firstSuitable_eq m value base m.size 0
  refine ⟨n, found, by omega, fun k => passed k (Nat.zero_le k), ?_⟩
  rw [tokenFor, found]
  by_cases fits : suits m value (candidate base n) = true
  · exact fits
  · -- Otherwise the first `n + 1` candidates are all bound, one more than there are entries.
    exfalso
    have last : n = m.size := by
      by_contra other
      exact fits (early (by omega))
    -- They differ, so each of them is an entry of its own.
    have distinct : ((List.range (n + 1)).map (candidate base)).Nodup :=
      List.nodup_range.map fun _ _ => candidate_injective base
    have taken : ∀ key ∈ (List.range (n + 1)).map (candidate base), m.get? key ≠ none := by
      intro key member
      obtain ⟨k, below, rfl⟩ := List.mem_map.mp member
      have unfit : suits m value (candidate base k) = false := by
        by_cases here : k = n
        · subst here
          simpa using fits
        · exact passed k (Nat.zero_le k) (by simp at below; omega)
      obtain ⟨other, found, -⟩ := suits_eq_false_iff.mp unfit
      simp [found]
    have tooMany := Ascending.length_le_size m distinct taken
    simp at tooMany
    omega

/-- A base that is suitable is chosen as it is. -/
theorem tokenFor_eq_base {m : KeyMap α} {base : Token} {value : α}
    (fits : suits m value base = true) : tokenFor m base value = base := by
  obtain ⟨n, found, -, passed, -⟩ := tokenFor_spec m base value
  cases n with
  | zero => exact found
  | succ n =>
    have taken := passed 0 (Nat.succ_pos n)
    rw [candidate, fits] at taken
    cases taken

theorem tokenFor_suits (m : KeyMap α) (base : Token) (value : α) :
    m.get? (tokenFor m base value) = none ∨ m.get? (tokenFor m base value) = some value := by
  obtain ⟨n, -, -, -, fits⟩ := tokenFor_spec m base value
  exact suits_iff.mp fits

end Search

/-! ### The shape of tokens -/

/-- The characters of a token after its first ones. -/
def isTokenChar (c : Char) : Bool :=
  c.isAlphanum || c = '_'

/-- Tokens of names as they are made for attributes. -/
def IsNameToken (token : Token) : Prop :=
  ∃ text : String, token = "#k_" ++ text ∧ text.toList.all isTokenChar

/-- Tokens of values as they are made for keys. -/
def IsValueToken (token : Token) : Prop :=
  ∃ text : String, token = ":v_" ++ text ∧ text.toList.all isTokenChar

theorem sanitize_tokenChars (text : String) : (sanitize text).toList.all isTokenChar := by
  simp only [sanitize, String.toList_map, List.all_map, List.all_eq_true, Function.comp_def]
  intro c _
  split <;> simp_all [isTokenChar]

theorem isTokenChar_of_isDigit {c : Char} (digit : c.isDigit = true) : isTokenChar c = true := by
  simp [isTokenChar, Char.isAlphanum, digit]

theorem digitsOf_tokenChars (n : Nat) : (digitsOf n).all isTokenChar := by
  rw [List.all_eq_true]
  intro c member
  exact isTokenChar_of_isDigit (Nat.isDigit_of_mem_toDigits (by decide) (by decide) member)

/-- A candidate keeps the start of its base and adds characters of tokens. -/
theorem candidate_append (start text : String) (n : Nat)
    (shape : text.toList.all isTokenChar) :
    ∃ longer : String, candidate (start ++ text) n = start ++ longer ∧
      longer.toList.all isTokenChar := by
  cases n with
  | zero => exact ⟨text, rfl, shape⟩
  | succ n =>
    -- The underscore and the digits are characters of tokens too.
    refine ⟨text ++ "_" ++ String.ofList (digitsOf (n + 1)), ?_, ?_⟩
    · simp [candidate, String.append_assoc]
    · have digits := digitsOf_tokenChars (n + 1)
      simp [shape, digits, isTokenChar]

section Shape

variable {α : Type} [DecidableEq α]

theorem isNameToken_tokenFor (m : KeyMap α) (name : String) (value : α) :
    IsNameToken (tokenFor m (nameToken name) value) := by
  obtain ⟨n, found, -⟩ := tokenFor_spec m (nameToken name) value
  rw [found]
  exact candidate_append "#k_" (sanitize name) n (sanitize_tokenChars name)

theorem isValueToken_tokenFor (m : KeyMap α) (key : String) (value : α) :
    IsValueToken (tokenFor m (valueToken key) value) := by
  obtain ⟨n, found, -⟩ := tokenFor_spec m (valueToken key) value
  rw [found]
  exact candidate_append ":v_" (sanitize key) n (sanitize_tokenChars key)

end Shape

/-- The token of the empty list is never made for a key. -/
theorem not_isValueToken_emptyListToken : ¬ IsValueToken emptyListToken := by
  rintro ⟨text, same, -⟩
  have texts := congrArg String.toList same
  simp [emptyListToken] at texts

end DocQuery
