import DocQuery.AttributeValue.Document
import DocQuery.Proofs.FieldOrder
import DocQuery.Proofs.NumberText

/-!
# DocQuery.Proofs.DocumentTrip

Documents that are made attribute values and documents again.

Fields come back sorted. Everything else comes back as it was, as long as the two texts that a
double has denote one decimal; a double for which they do not is refused and never changed.

## Main results

`AttributeValue.toDocument?_ofDocument_eq_some_iff`: what comes back from the value of a document.
`AttributeValue.isSorted_of_toDocument?`: the document of a value is sorted already.
-/

namespace DocQuery

/-! ### Settled documents -/

namespace Document

mutual

/-- Whether all numbers of a document are settled, at any depth. -/
def Settled : Document → Prop
  | .null | .bool _ | .string _ => True
  | .number value => value.Settled
  | .array items => SettledItems items
  | .object fields => SettledFields fields

def SettledItems : List Document → Prop
  | [] => True
  | item :: rest => item.Settled ∧ SettledItems rest

def SettledFields : Fields → Prop
  | [] => True
  | (_, value) :: rest => value.Settled ∧ SettledFields rest

end

theorem settled_array_iff {items : List Document} :
    (array items).Settled ↔ ∀ item ∈ items, item.Settled := by
  rw [Settled]
  induction items with
  | nil => simp [SettledItems]
  | cons item rest ih => rw [SettledItems, ih, List.forall_mem_cons]

theorem settled_object_iff {fields : Fields} :
    (object fields).Settled ↔ ∀ field ∈ fields, field.2.Settled := by
  rw [Settled]
  induction fields with
  | nil => simp [SettledFields]
  | cons field rest ih => rw [SettledFields, ih, List.forall_mem_cons]

/-- Whether the names of every object ascend, at any depth. -/
def IsSorted (document : Document) : Prop :=
  document.Distinct ∧ document.sorted = document

theorem isSorted_array {items : List Document} (each : ∀ item ∈ items, item.IsSorted) :
    (array items).IsSorted := by
  refine ⟨distinct_array_iff.mpr fun item member => (each item member).1, ?_⟩
  rw [sorted_array, List.map_congr_left fun item member => (each item member).2, List.map_id']

theorem isSorted_object {fields : Fields} (ascending : (fields.map Prod.fst).Pairwise (· < ·))
    (each : ∀ field ∈ fields, field.2.IsSorted) : (object fields).IsSorted := by
  refine ⟨distinct_object_iff.mpr ⟨ascending.imp Std.ne_of_lt, fun field member =>
    (each field member).1⟩, ?_⟩
  have same : fields.map (fun field => (field.1, field.2.sorted)) = fields.map id :=
    List.map_congr_left fun field member => by rw [(each field member).2, id]
  rw [sorted_object, same, List.map_id, sortFields_of_pairwise ascending]

end Document

namespace AttributeValue

/-! ### There and back -/

/-- Entries that were put into a map are converted in the order of their names. -/
theorem toFields?_ofList {α : Type} {make : α → AttributeValue} {fields : List (String × α)}
    (distinct : (fields.map Prod.fst).Nodup) :
    toFields? (.ofList (fields.map fun field => (field.1, make field.2))) =
      (sortFields fields).mapM fun field => (make field.2).toDocument?.map (field.1, ·) := by
  rw [← map_fst_map make] at distinct
  rw [toFields?_eq, Ascending.toList_ofList distinct, sortFields_map, List.mapM_map]
  rfl

theorem toFields?_ofFields {fields : Fields} (distinct : (fields.map Prod.fst).Nodup) :
    toFields? (ofFields fields) =
      (sortFields fields).mapM fun field => (ofDocument field.2).toDocument?.map (field.1, ·) := by
  rw [ofFields_eq, toFields?_ofList distinct]

/-- What comes back from the value of a document: the sorted document if all its numbers are
settled, and nothing else. -/
theorem toDocument?_ofDocument_eq_some_iff {document result : Document}
    (distinct : document.Distinct) :
    (ofDocument document).toDocument? = some result ↔
      document.Settled ∧ result = document.sorted := by
  induction document using Document.induction_nested generalizing result with
  | null | bool | string =>
    simp [ofDocument, toDocument?, Document.Settled, Document.sorted, eq_comm]
  | number value =>
    rw [ofDocument, toDocument?, Document.Settled]
    exact map_eq_some_iff_of_read fun _ => Number.ofText?_text_eq_some_iff
  | array items ih =>
    rw [Document.distinct_array_iff] at distinct
    rw [ofDocument, toDocument?, ofItems_eq, toItems?_eq, List.mapM_map, Document.settled_array_iff,
      Document.sorted_array]
    apply map_eq_some_iff_of_read
    intro documents
    apply mapM_eq_some_iff_of_each
    intro item member read
    exact ih item member (distinct item member)
  | object fields ih =>
    rw [Document.distinct_object_iff] at distinct
    obtain ⟨names, distinctFields⟩ := distinct
    -- The fields have gone through a map, so they are read back in its order.
    have each : ∀ field ∈ sortFields fields, ∀ read,
        (ofDocument field.2).toDocument?.map (field.1, ·) = some read ↔
          field.2.Settled ∧ read = (field.1, field.2.sorted) := by
      intro field member read
      rw [mem_sortFields] at member
      exact map_eq_some_iff_of_read fun _ => ih field member (distinctFields field member)
    rw [ofDocument, toDocument?, toFields?_ofFields names, Document.settled_object_iff,
      Document.sorted_object, sortFields_map]
    apply map_eq_some_iff_of_read
    intro documents
    simp only [mapM_eq_some_iff_of_each each, mem_sortFields]

/-! ### Documents of values -/

/-- The document of a value has ascending names at every depth. -/
theorem isSorted_of_toDocument? {value : AttributeValue} {document : Document}
    (made : value.toDocument? = some document) : document.IsSorted := by
  induction value using induction_nested generalizing document with
  | string | binary | bool | null =>
    cases made
    exact ⟨trivial, rfl⟩
  | number text =>
    obtain ⟨n, -, rfl⟩ := Option.map_eq_some_iff.mp made
    exact ⟨trivial, rfl⟩
  | stringSet members =>
    cases made
    exact Document.isSorted_array (List.forall_mem_map.mpr fun _ _ => ⟨trivial, rfl⟩)
  | numberSet members =>
    obtain ⟨numbers, -, rfl⟩ := Option.map_eq_some_iff.mp made
    exact Document.isSorted_array (List.forall_mem_map.mpr fun _ _ => ⟨trivial, rfl⟩)
  | binarySet members =>
    cases made
    exact Document.isSorted_array (List.forall_mem_map.mpr fun _ _ => ⟨trivial, rfl⟩)
  | list items ih =>
    rw [toDocument?, toItems?_eq] at made
    obtain ⟨documents, read, rfl⟩ := Option.map_eq_some_iff.mp made
    refine Document.isSorted_array fun document member => ?_
    obtain ⟨item, inItems, here⟩ := exists_mem_of_forall₂ (mapM_eq_some_iff.mp read) member
    exact ih item inItems here
  | map entries ih =>
    rw [toDocument?, toFields?_eq] at made
    obtain ⟨fields, read, rfl⟩ := Option.map_eq_some_iff.mp made
    rw [mapM_eq_some_iff] at read
    have names : entries.keys = fields.map Prod.fst := map_fst_eq_of_forall₂ read
    refine Document.isSorted_object (names ▸ entries.pairwise_keys) fun field member => ?_
    obtain ⟨entry, inEntries, here⟩ := exists_mem_of_forall₂ read member
    obtain ⟨_, made, rfl⟩ := Option.map_eq_some_iff.mp here
    exact ih entry inEntries made

/-- Documents survive the way to the store and back. A document without duplicate names comes back
with sorted fields and otherwise unchanged, and so does an object that is made an item. The document
of any value comes back as it is. All of this holds just if the numbers of the document are
settled. -/
theorem documents_survive :
    (∀ document : Document, document.Distinct →
      ((ofDocument document).toDocument? = some document.sorted ↔ document.Settled)) ∧
    (∀ fields : Fields, (Document.object fields).Distinct →
      ∃ item, Item.ofDocument? (.object fields) = some item ∧
        (item.toDocument? = some (Document.object fields).sorted ↔
          (Document.object fields).Settled)) ∧
    ∀ (value : AttributeValue) (document : Document), value.toDocument? = some document →
      ((ofDocument document).toDocument? = some document ↔ document.Settled) := by
  have trip (document : Document) (distinct : document.Distinct) :
      (ofDocument document).toDocument? = some document.sorted ↔ document.Settled := by
    rw [toDocument?_ofDocument_eq_some_iff distinct, and_iff_left rfl]
  refine ⟨trip, fun fields distinct => ⟨ofFields fields, rfl, trip _ distinct⟩, ?_⟩
  intro value document made
  obtain ⟨distinct, sorted⟩ := isSorted_of_toDocument? made
  have returns := trip document distinct
  rwa [sorted] at returns

/-- The greatest whole numbers, one as a whole number and as a double, minus zero, and doubles with
and without a power of ten in their texts; fields out of order at two depths. -/
def mixedNumbers : Fields :=
  [("whole", .object [
      ("top", .number (.whole 18446744073709551615 (by decide))),
      ("low", .number (.whole (-9223372036854775808) (by decide))),
      ("one", .number (.whole 1 (by decide)))]),
    ("double", .array [
      .number (.double ⟨false, 4503599627370496, -52, by decide⟩),
      .number (.double (.zero true)),
      .number (.double ⟨false, 7205759403792794, -56, by decide⟩),
      .number (.double ⟨false, 6724873095247260, 944, by decide⟩)])]

/-- Sets of numbers that are not written as they will be, and bytes. -/
def mixedSets : AttributeValue :=
  .list [.numberSet ["1.50", "+5", "-0e7"], .binary [104, 105]]

/-- The document of these sets. -/
def mixedArrays : Document :=
  .array [
    .array [
      .number (.double ⟨false, 6755399441055744, -52, by decide⟩),
      .number (.whole 5 (by decide)),
      .number (.double (.zero true))],
    .string "aGk="]

theorem mixed_survive :
    (ofDocument (.object mixedNumbers)).toDocument? = some (Document.object mixedNumbers).sorted ∧
    (∃ item, Item.ofDocument? (.object mixedNumbers) = some item ∧
      item.toDocument? = some (Document.object mixedNumbers).sorted) ∧
    mixedSets.toDocument? = some mixedArrays ∧
    (ofDocument mixedArrays).toDocument? = some mixedArrays := by
  obtain ⟨documents, objects, values⟩ := documents_survive
  have distinct : (Document.object mixedNumbers).Distinct := by
    simp [mixedNumbers, Document.Distinct, Document.DistinctItems, Document.DistinctFields]
  have settled : (Document.object mixedNumbers).Settled := by
    simp only [mixedNumbers, Document.Settled, Document.SettledItems, Document.SettledFields,
      Number.Settled]
    decide +kernel
  have settledArrays : mixedArrays.Settled := by
    simp only [mixedArrays, Document.Settled, Document.SettledItems, Number.Settled]
    decide +kernel
  have numbers : ["1.50", "+5", "-0e7"].mapM Number.ofText? =
      some [.double ⟨false, 6755399441055744, -52, by decide⟩, .whole 5 (by decide),
        .double (.zero true)] := by
    decide +kernel
  have bytes : Base64.text [104, 105] = "aGk=" := by decide +kernel
  have made : mixedSets.toDocument? = some mixedArrays := by
    simp [mixedSets, mixedArrays, toDocument?, toItems?, numbers, bytes]
  obtain ⟨item, converted, returns⟩ := objects mixedNumbers distinct
  exact ⟨(documents _ distinct).mpr settled, ⟨item, converted, returns.mpr settled⟩, made,
    (values mixedSets mixedArrays made).mpr settledArrays⟩

end AttributeValue

end DocQuery
