import DocQuery.Proofs.TokenChoice

/-!
# DocQuery.Proofs.FirstFit

The search for a token, and the map in which the token is bound.

The search looks at one candidate after another and stops where one suits. Here it goes on by
itself (`Finds`), so that it is the map and no bound on the number of looks that ends it.

## Main result

`token_is_first_fit`: the search ends, at the first candidate that suits, and changes nothing but
the binding of that candidate.

## Proof strategy

`tokenFor_spec` bounds the index of the chosen token by the number of entries. All candidates
before it are taken, so the search walks up to it, and it has no other way to go.
-/

namespace DocQuery

/-! ### The search -/

/-- The search for a token from the candidate at `index` on finds `token`, after some number of
looks at the map. -/
inductive Finds {α : Type} [DecidableEq α] (m : KeyMap α) (base : Token) (value : α) :
    Nat → Token → Nat → Prop where
  | here {index : Nat} (fits : suits m value (candidate base index) = true) :
    Finds m base value index (candidate base index) 1
  | further {index looks : Nat} {token : Token}
    (taken : suits m value (candidate base index) = false)
    (rest : Finds m base value (index + 1) token looks) :
    Finds m base value index token (looks + 1)

namespace Finds

variable {α : Type} [DecidableEq α] {m : KeyMap α} {base token other : Token} {value : α}
  {index looks others : Nat}

/-- A look at a candidate leaves no choice, so the search has one end at most. -/
theorem unique (finds : Finds m base value index token looks)
    (again : Finds m base value index other others) : other = token ∧ others = looks := by
  -- Both runs look at the same candidate, so they stop together or go on together.
  induction finds generalizing others with
  | here fits =>
    cases again with
    | here => exact ⟨rfl, rfl⟩
    | further taken =>
      rw [fits] at taken
      cases taken
  | further taken rest ih =>
    cases again with
    | here fits =>
      rw [fits] at taken
      cases taken
    | further _ rest =>
      obtain ⟨rfl, rfl⟩ := ih rest
      exact ⟨rfl, rfl⟩

/-- Candidates that are taken are passed over with one look each. -/
theorem of_passed {count : Nat} (fits : suits m value (candidate base (index + count)) = true)
    (passed : ∀ k, index ≤ k → k < index + count → suits m value (candidate base k) = false) :
    Finds m base value index (candidate base (index + count)) (count + 1) := by
  -- The first of the candidates is passed over, and the others are `count` from the next index on.
  induction count generalizing index with
  | zero => exact .here fits
  | succ count ih =>
    have first := passed index (by omega) (by omega)
    have shift : index + (count + 1) = index + 1 + count := by omega
    rw [shift] at fits passed ⊢
    exact .further first (ih fits fun k low high => passed k (by omega) high)

end Finds

/-! ### The entries of a map -/

namespace Ascending

variable {α : Type}

theorem size_insertAbove (key : String) (value : α) :
    ∀ {bound : Option String} (m : Ascending α bound) (above : Above bound key),
      (m.insertAbove key value above).size = if m.get? key = none then m.size + 1 else m.size
  | _, .nil, _ => rfl
  | _, .cons k kAbove w rest, above => by
    rw [insertAbove]
    split
    · -- A key below the first one is bound nowhere.
      next less =>
      have apart : k ≠ key := fun same => String.lt_irrefl key (same ▸ less)
      have free := get?_eq_none_of_not_above rest
        (fun back : k < key => String.lt_irrefl key (String.lt_trans less back))
      simp [get?, apart, free, size]
    · split
      · next same => simp [get?, same, size]
      · next apart =>
        -- The key lies above the first one, so it is free in the whole just if it is in the rest.
        rw [size, size_insertAbove key value rest]
        simp only [get?, Ne.symm apart, if_false, size]
        split <;> rfl

/-- A map grows by one entry where a key was free, and by none where it was bound. -/
theorem size_insert (m : KeyMap α) (key : String) (value : α) :
    (m.insert key value).size = if m.get? key = none then m.size + 1 else m.size :=
  size_insertAbove key value m trivial

end Ascending

/-! ### Tokens that are asked for -/

/-- What it takes to ask for a token of `value` in the map `m`: `token` is found, and `n` is the map
after it was bound. -/
structure FirstFit {α : Type} [DecidableEq α] (m : KeyMap α) (base : Token) (value : α)
    (token : Token) (n : KeyMap α) : Prop where
  /-- The search ends, and in this way only, after at most one look more than there are entries. -/
  ends : ∃ looks ≤ m.size + 1, ∀ found others,
    Finds m base value 0 found others ↔ found = token ∧ others = looks
  /-- The token is free or bound to the value, and all candidates before it are bound to others. -/
  first : ∃ index, token = candidate base index ∧
    (m.get? token = none ∨ m.get? token = some value) ∧
    ∀ earlier < index, ∃ other, m.get? (candidate base earlier) = some other ∧ other ≠ value
  bound : n.get? token = some value
  others : ∀ key, key ≠ token → n.get? key = m.get? key
  /-- At most one entry is new. -/
  size : n.size = if m.get? token = none then m.size + 1 else m.size
  same : m.get? token = some value → n = m

theorem firstFit_tokenFor {α : Type} [DecidableEq α] (m : KeyMap α) (base : Token) (value : α) :
    FirstFit m base value (tokenFor m base value) (m.insert (tokenFor m base value) value) := by
  obtain ⟨index, chosen, below, passed, fits⟩ := tokenFor_spec m base value
  refine ⟨⟨index + 1, by omega, fun found others => ?_⟩,
    ⟨index, chosen, tokenFor_suits m base value, ?_⟩, Ascending.get?_insert_self m _ _,
    fun key apart => Ascending.get?_insert_of_ne m (Ne.symm apart) value,
    Ascending.size_insert m _ _, Ascending.insert_eq_self_of_get?_eq_some⟩
  · -- The search passes over the candidates before the token and stops there.
    have finds : Finds m base value 0 (candidate base (0 + index)) (index + 1) := by
      refine .of_passed ?_ fun k _ high => passed k (by omega)
      rw [Nat.zero_add, ← chosen]
      exact fits
    rw [Nat.zero_add, ← chosen] at finds
    constructor
    · exact finds.unique
    · rintro ⟨rfl, rfl⟩
      exact finds
  · intro earlier before
    exact suits_eq_false_iff.mp (passed earlier before)

/-- Tokens are chosen by first fit, whatever the map and whatever it is that a token is asked for.
The search looks at no more candidates than there are entries and one more, takes the first that is
free or bound to the value, binds it and changes nothing else. Attributes are named in this way, and
values are bound in this way, each in the map of their own. -/
theorem token_is_first_fit :
    (∀ (α : Type) [DecidableEq α] (m : KeyMap α) (base : Token) (value : α),
      FirstFit m base value (tokenFor m base value) (m.insert (tokenFor m base value) value)) ∧
    (∀ (name : String) (p : Placeholders),
      let named := Naming.nameAttribute name p
      FirstFit p.names (nameToken name) name named.1 named.2.names ∧ named.2.values = p.values) ∧
    ∀ (key : String) (value : AttributeValue) (p : Placeholders),
      let bound := Naming.bindValue key value p
      FirstFit p.values (valueToken key) value bound.1 bound.2.values ∧
        bound.2.names = p.names := by
  refine ⟨fun α _ m base value => firstFit_tokenFor m base value, fun name p => ⟨?_, rfl⟩,
    fun key value p => ⟨?_, rfl⟩⟩
  · exact firstFit_tokenFor p.names (nameToken name) name
  · exact firstFit_tokenFor p.values (valueToken key) value

/-- A gap is filled although a later candidate is bound to the value already. -/
example : tokenFor (((∅ : KeyMap String).insert "#k_a" "a.b").insert "#k_a_2" "a") "#k_a" "a" =
    "#k_a_1" := by
  decide +kernel

end DocQuery
