import DocQuery.Document
import DocQuery.Proofs.Nesting
import DocQuery.Proofs.TokenChoice
import Mathlib.Data.List.Sort

/-!
# DocQuery.Proofs.FieldOrder

Objects whose fields are brought into the order of a map.

Fields that are put into a map lose their order and come out sorted by name. Where no two of them
have one name, nothing else is lost.

## Main results

`Ascending.toList_ofList`: the entries of a map that was made of fields with different names are
these fields, sorted.
`Ascending.ofList_toList`: a map that is made of its own entries is the map it was.
`Document.sorted`: a document with the fields of every object sorted.
-/

namespace DocQuery

/-! ### Sorting -/

section Sorting

variable {α β : Type}

/-- Whether a field may stand before another. -/
def NameLE (one other : String × α) : Prop :=
  one.1 ≤ other.1

instance : DecidableRel (NameLE (α := α)) := fun one other =>
  inferInstanceAs (Decidable (one.1 ≤ other.1))

instance : Std.Total (NameLE (α := α)) := ⟨fun _ _ => Std.le_total⟩

instance : IsTrans (String × α) NameLE := ⟨fun _ _ _ => Std.le_trans⟩

/-- Fields in the order of their names. -/
def sortFields (fields : List (String × α)) : List (String × α) :=
  fields.insertionSort NameLE

/-- What is done to values changes nothing of the names. -/
theorem map_fst_map (f : α → β) (fields : List (String × α)) :
    (fields.map fun field => (field.1, f field.2)).map Prod.fst = fields.map Prod.fst := by
  rw [List.map_map]
  rfl

/-- What is done to values changes nothing of the order. -/
theorem sortFields_map (f : α → β) (fields : List (String × α)) :
    sortFields (fields.map fun field => (field.1, f field.2)) =
      (sortFields fields).map fun field => (field.1, f field.2) :=
  (List.map_insertionSort NameLE NameLE (fun field => (field.1, f field.2)) fields
    fun _ _ _ _ => Iff.rfl).symm

/-- Fields whose names ascend are sorted already. -/
theorem sortFields_of_pairwise {fields : List (String × α)}
    (ascending : (fields.map Prod.fst).Pairwise (· < ·)) : sortFields fields = fields := by
  apply List.Pairwise.insertionSort_eq
  exact (List.pairwise_map.mp ascending).imp Std.le_of_lt

theorem mem_sortFields {field : String × α} {fields : List (String × α)} :
    field ∈ sortFields fields ↔ field ∈ fields :=
  List.mem_insertionSort NameLE

namespace Ascending

theorem toList_insertAbove {key : String} {value : α} : ∀ {bound : Option String}
    (m : Ascending α bound) (above : Above bound key), key ∉ m.keys →
      (m.insertAbove key value above).toList = m.toList.orderedInsert NameLE (key, value)
  | _, .nil, above, _ => rfl
  | _, .cons k kAbove w rest, above, fresh => by
    simp only [keys, toList, List.map_cons, List.mem_cons, not_or] at fresh
    obtain ⟨apart, freshRest⟩ := fresh
    rw [insertAbove, toList]
    by_cases less : key < k
    · have order : NameLE (key, value) (k, w) := Std.le_of_lt less
      rw [dif_pos less, List.orderedInsert_cons_of_le _ _ order]
      rfl
    · have greater : k < key := Above.of_not_lt less apart
      have order : ¬ NameLE (key, value) (k, w) := Std.not_le.mpr greater
      rw [dif_neg less, dif_neg apart, List.orderedInsert_of_not_le _ _ order, toList,
        toList_insertAbove rest _ freshRest]

theorem keys_ofList_subset (fields : List (String × α)) :
    ∀ key ∈ (ofList fields).keys, key ∈ fields.map Prod.fst := by
  induction fields with
  | nil => exact List.forall_mem_nil _
  | cons field rest ih =>
    intro key member
    obtain ⟨name, value⟩ := field
    rw [mem_keys_iff, ofList] at member
    by_cases here : name = key
    · subst here
      exact List.mem_cons_self
    · rw [get?_insert_of_ne _ here, ← mem_keys_iff] at member
      exact List.mem_cons_of_mem _ (ih key member)

/-- Fields with different names come out of a map sorted. -/
theorem toList_ofList {fields : List (String × α)} (distinct : (fields.map Prod.fst).Nodup) :
    (ofList fields).toList = sortFields fields := by
  induction fields with
  | nil => rfl
  | cons field rest ih =>
    obtain ⟨name, value⟩ := field
    obtain ⟨fresh, others⟩ := List.nodup_cons.mp distinct
    have freshKey : name ∉ (ofList rest).keys := fun member =>
      fresh (keys_ofList_subset rest name member)
    calc (ofList ((name, value) :: rest)).toList
        = (ofList rest).toList.orderedInsert NameLE (name, value) :=
          toList_insertAbove (ofList rest) trivial freshKey
      _ = (sortFields rest).orderedInsert NameLE (name, value) := by rw [ih others]

theorem above_of_mem_keys : ∀ {bound : Option String} (m : Ascending α bound),
    ∀ key ∈ m.keys, Above bound key
  | _, .nil, key, member => by cases member
  | bound, .cons k above value rest, key, member => by
    rcases List.mem_cons.mp member with rfl | inRest
    · exact above
    · have less : k < key := above_of_mem_keys rest key inRest
      cases bound with
      | none => trivial
      | some low => exact String.lt_trans above less

/-- The keys of a map ascend strictly. -/
theorem pairwise_keys : ∀ {bound : Option String} (m : Ascending α bound),
    m.keys.Pairwise (· < ·)
  | _, .nil => .nil
  | _, .cons _ _ _ rest => .cons (above_of_mem_keys rest) (pairwise_keys rest)

theorem nodup_keys {bound : Option String} (m : Ascending α bound) : m.keys.Nodup :=
  m.pairwise_keys.imp Std.ne_of_lt

/-- The entries of a map are sorted already. -/
theorem sortFields_toList {bound : Option String} (m : Ascending α bound) :
    sortFields m.toList = m.toList :=
  sortFields_of_pairwise m.pairwise_keys

/-- A map is made again of its entries. -/
theorem ofList_toList (m : KeyMap α) : ofList m.toList = m := by
  apply toList_injective
  rw [toList_ofList m.nodup_keys, sortFields_toList]

end Ascending

end Sorting

/-! ### Documents -/

namespace Document

mutual

/-- No object has two fields of one name, at any depth. -/
def Distinct : Document → Prop
  | .null | .bool _ | .number _ | .string _ => True
  | .array items => DistinctItems items
  | .object fields => (fields.map Prod.fst).Nodup ∧ DistinctFields fields

def DistinctItems : List Document → Prop
  | [] => True
  | item :: rest => item.Distinct ∧ DistinctItems rest

def DistinctFields : Fields → Prop
  | [] => True
  | (_, value) :: rest => value.Distinct ∧ DistinctFields rest

end

mutual

/-- The document with the fields of every object in the order of their names. -/
def sorted : Document → Document
  | .array items => .array (sortedItems items)
  | .object fields => .object (sortFields (sortedFields fields))
  | document => document

def sortedItems : List Document → List Document
  | [] => []
  | item :: rest => item.sorted :: sortedItems rest

def sortedFields : Fields → Fields
  | [] => []
  | (name, value) :: rest => (name, value.sorted) :: sortedFields rest

end

theorem distinctItems_iff (items : List Document) :
    DistinctItems items ↔ ∀ item ∈ items, item.Distinct := by
  induction items with
  | nil => simp [DistinctItems]
  | cons item rest ih => rw [DistinctItems, ih, List.forall_mem_cons]

theorem distinctFields_iff (fields : Fields) :
    DistinctFields fields ↔ ∀ field ∈ fields, field.2.Distinct := by
  induction fields with
  | nil => simp [DistinctFields]
  | cons field rest ih => rw [DistinctFields, ih, List.forall_mem_cons]

theorem distinct_array_iff {items : List Document} :
    (array items).Distinct ↔ ∀ item ∈ items, item.Distinct := by
  rw [Distinct, distinctItems_iff]

theorem distinct_object_iff {fields : Fields} : (object fields).Distinct ↔
    (fields.map Prod.fst).Nodup ∧ ∀ field ∈ fields, field.2.Distinct := by
  rw [Distinct, distinctFields_iff]

theorem sorted_array (items : List Document) :
    (array items).sorted = .array (items.map sorted) := by
  rw [sorted]
  congr 1
  induction items with
  | nil => rfl
  | cons item rest ih => rw [sortedItems, ih, List.map_cons]

theorem sorted_object (fields : Fields) : (object fields).sorted =
    .object (sortFields (fields.map fun field => (field.1, field.2.sorted))) := by
  rw [sorted]
  congr 2
  induction fields with
  | nil => rfl
  | cons field rest ih => rw [sortedFields, ih, List.map_cons]

theorem sorted_sole (name : String) (value : Document) :
    (object [(name, value)]).sorted = .object [(name, value.sorted)] :=
  sorted_object _

theorem sorted_texts (texts : List String) :
    (array (texts.map .string)).sorted = .array (texts.map .string) := by
  rw [sorted_array, List.map_map]
  rfl

theorem distinct_sole_iff {name : String} {value : Document} :
    (object [(name, value)]).Distinct ↔ value.Distinct := by
  simp [distinct_object_iff]

end Document

end DocQuery
