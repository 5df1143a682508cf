/-!
# DocQuery.KeyMap

Finite maps from texts, kept as association lists whose keys ascend strictly.

The order is part of the type, so two maps with the same bindings are the same value
(`Ascending.ext`) and equality of maps ignores the order in which entries were put in.
Being an ordinary inductive type, a map may hold values that hold maps again.
-/

namespace DocQuery

/-- `key` lies above `bound`; every key lies above no bound at all. -/
def Above : Option String → String → Prop
  | none, _ => True
  | some bound, key => bound < key

instance : ∀ (bound : Option String) (key : String), Decidable (Above bound key)
  | none, _ => isTrue trivial
  | some bound, key => inferInstanceAs (Decidable (bound < key))

theorem Above.of_lt {low key : String} (less : low < key) : Above (some low) key := less

theorem Above.of_not_lt {low key : String} (less : ¬ key < low) (apart : ¬ key = low) :
    Above (some low) key :=
  Std.lt_of_le_of_ne (Std.not_lt.mp less) (Ne.symm apart)

/-- Entries in strictly ascending order of their keys, all above `bound`. -/
inductive Ascending (α : Type) : Option String → Type where
  | nil {bound : Option String} : Ascending α bound
  | cons {bound : Option String} (key : String) (above : Above bound key) (value : α)
      (rest : Ascending α (some key)) : Ascending α bound
deriving Repr

/-- A finite map from texts to `α`. -/
abbrev KeyMap (α : Type) := Ascending α none

namespace Ascending

variable {α β : Type} {bound : Option String}

instance : EmptyCollection (Ascending α bound) := ⟨.nil⟩

instance : Inhabited (Ascending α bound) := ⟨.nil⟩

/-- The entries in ascending order of their keys. -/
def toList : {bound : Option String} → Ascending α bound → List (String × α)
  | _, .nil => []
  | _, .cons key _ value rest => (key, value) :: rest.toList

/-- The keys in ascending order. -/
def keys (m : Ascending α bound) : List String :=
  m.toList.map Prod.fst

/-- The number of entries. -/
def size : {bound : Option String} → Ascending α bound → Nat
  | _, .nil => 0
  | _, .cons _ _ _ rest => rest.size + 1

def isEmpty : Ascending α bound → Bool
  | .nil => true
  | .cons .. => false

/-- The value bound to `key`, if any. -/
def get? : {bound : Option String} → Ascending α bound → String → Option α
  | _, .nil, _ => none
  | _, .cons k _ value rest, key => if k = key then some value else rest.get? key

/-- Bind `key`, replacing a binding that is already there. -/
def insertAbove (key : String) (value : α) :
    {bound : Option String} → Ascending α bound → Above bound key → Ascending α bound
  | _, .nil, above => .cons key above value .nil
  | _, .cons k kAbove w rest, above =>
    if less : key < k then .cons key above value (.cons k (.of_lt less) w rest)
    else if same : key = k then .cons k kAbove value rest
    else .cons k kAbove w (rest.insertAbove key value (.of_not_lt less same))

/-- Bind `key` in a map, replacing a binding that is already there. -/
def insert (m : KeyMap α) (key : String) (value : α) : KeyMap α :=
  m.insertAbove key value trivial

/-- The map of a list of entries; of several entries with one key the first counts. -/
def ofList : List (String × α) → KeyMap α
  | [] => .nil
  | (key, value) :: rest => (ofList rest).insert key value

/-- Keep each key and change its value. -/
def mapValues (f : α → β) : {bound : Option String} → Ascending α bound → Ascending β bound
  | _, .nil => .nil
  | _, .cons key above value rest => .cons key above (f value) (rest.mapValues f)

/-! ### Equality -/

theorem toList_injective : ∀ {bound : Option String} {m n : Ascending α bound},
    m.toList = n.toList → m = n
  | _, .nil, .nil, _ => rfl
  | _, .nil, .cons .., same => by simp [toList] at same
  | _, .cons .., .nil, same => by simp [toList] at same
  | _, .cons k _ v rest, .cons l _ w others, same => by
    simp only [toList, List.cons.injEq, Prod.mk.injEq] at same
    obtain ⟨⟨rfl, rfl⟩, tails⟩ := same
    rw [toList_injective tails]

instance [DecidableEq α] : DecidableEq (Ascending α bound) := fun m n =>
  decidable_of_iff (m.toList = n.toList) ⟨toList_injective, fun same => same ▸ rfl⟩

/-! ### Look-up -/

@[simp] theorem get?_nil (key : String) : (.nil : Ascending α bound).get? key = none := rfl

/-- No key of a map lies at or below its bound. -/
theorem get?_eq_none_of_not_above : ∀ {bound : Option String} (m : Ascending α bound)
    {key : String}, ¬ Above bound key → m.get? key = none
  | _, .nil, _, _ => rfl
  | bound, .cons k above v rest, key, outside => by
    have apart : k ≠ key := fun same => outside (same ▸ above)
    have below : ¬ k < key := fun less => outside <| by
      cases bound with
      | none => trivial
      | some low => exact String.lt_trans above less
    simp only [get?, apart, if_false]
    exact get?_eq_none_of_not_above rest below

@[simp] theorem get?_insertAbove_self (key : String) (value : α) :
    ∀ {bound : Option String} (m : Ascending α bound) (above : Above bound key),
      (m.insertAbove key value above).get? key = some value
  | _, .nil, above => by simp [insertAbove, get?]
  | _, .cons k kAbove w rest, above => by
    rw [insertAbove]
    split
    · simp [get?]
    · split
      · next same => simp [get?, same]
      · next apart => simp [get?, Ne.symm apart, get?_insertAbove_self key value rest]

theorem get?_insertAbove_of_ne {key other : String} (apart : key ≠ other) (value : α) :
    ∀ {bound : Option String} (m : Ascending α bound) (above : Above bound key),
      (m.insertAbove key value above).get? other = m.get? other
  | _, .nil, above => by simp [insertAbove, get?, apart]
  | _, .cons k kAbove w rest, above => by
    rw [insertAbove]
    split
    · simp [get?, apart]
    · split
      · next same => subst same; simp [get?, apart]
      · simp [get?, get?_insertAbove_of_ne apart value rest]

@[simp] theorem get?_insert_self (m : KeyMap α) (key : String) (value : α) :
    (m.insert key value).get? key = some value :=
  get?_insertAbove_self key value m trivial

theorem get?_insert_of_ne (m : KeyMap α) {key other : String} (apart : key ≠ other) (value : α) :
    (m.insert key value).get? other = m.get? other :=
  get?_insertAbove_of_ne apart value m trivial

/-- A binding that is already there stays as it is. -/
theorem insert_eq_self_of_get?_eq_some {m : KeyMap α} {key : String} {value : α}
    (bound : m.get? key = some value) : m.insert key value = m := by
  -- The entry may stand anywhere, so the statement is about every bound.
  have general : ∀ {low : Option String} (n : Ascending α low) (above : Above low key),
      n.get? key = some value → n.insertAbove key value above = n := by
    intro low n
    induction n with
    | nil => intro _ found; simp at found
    | cons k kAbove w rest ih =>
      intro above found
      rw [insertAbove]
      split
      · -- A key below the first one is not bound at all.
        next less =>
        have apart : k ≠ key := fun same => String.lt_irrefl key (same ▸ less)
        simp only [get?, apart, if_false] at found
        rw [get?_eq_none_of_not_above rest
          (fun back => String.lt_irrefl key (String.lt_trans less back))] at found
        simp at found
      · split
        · next same =>
          simp only [get?, same, if_true, Option.some.injEq] at found
          rw [found]
        · next apart =>
          simp only [get?, Ne.symm apart, if_false] at found
          rw [ih _ found]
  exact general m trivial bound

/-- Maps that answer every look-up alike are equal. -/
@[ext] theorem ext : ∀ {bound : Option String} {m n : Ascending α bound},
    (∀ key, m.get? key = n.get? key) → m = n
  | _, .nil, .nil, _ => rfl
  | _, .nil, .cons k .., same => by simpa [get?] using same k
  | _, .cons k .., .nil, same => by simpa [get?] using same k
  | _, .cons k kAbove v rest, .cons l lAbove w others, same => by
    -- The first keys agree: the lesser of the two would be missing from the other map.
    have keysAgree : k = l := by
      apply Decidable.byContradiction
      intro apart
      by_cases less : k < l
      · have found := same k
        simp only [get?, if_true, Ne.symm apart, if_false] at found
        rw [get?_eq_none_of_not_above others
          (fun back => String.lt_irrefl k (String.lt_trans less back))] at found
        simp at found
      · have greater : l < k := Std.lt_of_le_of_ne (Std.not_lt.mp less) (Ne.symm apart)
        have found := same l
        simp only [get?, if_true, apart, if_false] at found
        rw [get?_eq_none_of_not_above rest
          (fun back => String.lt_irrefl l (String.lt_trans greater back))] at found
        simp at found
    subst keysAgree
    have first := same k
    simp only [get?, if_true, Option.some.injEq] at first
    subst first
    -- Neither rest binds the first key again, so the rests agree everywhere.
    have tails : ∀ key, rest.get? key = others.get? key := by
      intro key
      by_cases here : k = key
      · subst here
        rw [get?_eq_none_of_not_above rest (String.lt_irrefl k),
          get?_eq_none_of_not_above others (String.lt_irrefl k)]
      · simpa [get?, here] using same key
    rw [ext tails]

end Ascending

end DocQuery
