import DocQuery.Proofs.ByteOrder
import DocQuery.Proofs.DocumentTrip

/-!
# DocQuery.Proofs.EntryOrder

Values whose maps list their entries in any order.

A hash map lists its entries in an order of its own. Its document must not show it: the entries are
sorted before they are converted, at every depth. Here a value carries the order of its entries,
and its document is compared with that of the value without it.

## Main results

`Listing.value_eq_of_equal`: equal listings are of one value.
`Listing.toDocument?_value`: the document of a listing is that of its value.
`Listing.exists_listing`: every value is listed, so what holds of listings holds of all values.
`Listing.documents_hide_entry_order`: what is known of the document of a listing.
-/

namespace DocQuery

/-! ### Look-up -/

section Lookup

variable {α β : Type} {entries : List (String × α)} {name : String} {value : α}

theorem lookup_eq_none_iff_not_mem :
    entries.lookup name = none ↔ name ∉ entries.map Prod.fst := by
  rw [List.lookup_eq_none_iff, List.mem_map, not_exists]
  refine forall_congr' fun entry => ?_
  rw [not_and, bne_iff_ne, ne_comm]

theorem lookup_eq_some_of_mem (distinct : (entries.map Prod.fst).Nodup)
    (member : (name, value) ∈ entries) : entries.lookup name = some value := by
  obtain ⟨before, after, rfl⟩ := List.append_of_mem member
  refine List.lookup_eq_some_iff.mpr ⟨before, after, rfl, fun entry inBefore => ?_⟩
  rw [List.map_append, List.nodup_append] at distinct
  rw [bne_iff_ne]
  exact (distinct.2.2 _ (List.mem_map_of_mem inBefore) _ List.mem_cons_self).symm

theorem mem_of_lookup_eq_some (found : entries.lookup name = some value) :
    (name, value) ∈ entries := by
  obtain ⟨before, after, rfl, -⟩ := List.lookup_eq_some_iff.mp found
  exact List.mem_append_right before List.mem_cons_self

theorem lookup_map (f : α → β) (entries : List (String × α)) (name : String) :
    (entries.map fun entry => (entry.1, f entry.2)).lookup name = (entries.lookup name).map f := by
  induction entries with
  | nil => rfl
  | cons entry rest ih =>
    rw [List.map_cons, List.lookup_cons, List.lookup_cons, ih]
    cases name == entry.1 <;> rfl

theorem Ascending.get?_ofList (entries : List (String × α)) (name : String) :
    (ofList entries).get? name = entries.lookup name := by
  induction entries with
  | nil => rfl
  | cons entry rest ih =>
    rw [ofList, List.lookup_cons]
    by_cases here : entry.1 = name
    · subst here
      rw [get?_insert_self, beq_self_eq_true]
    · rw [get?_insert_of_ne _ here, ih, beq_eq_false_iff_ne.mpr (Ne.symm here)]

end Lookup

/-! ### Listings -/

/-- Whether a value holds no values of its kind. -/
def AttributeValue.isFlat : AttributeValue → Bool
  | .list _ | .map _ => false
  | _ => true

/-- A value whose maps list their entries in some order. -/
inductive Listing where
  | flat (value : AttributeValue) (isFlat : value.isFlat = true)
  | list (items : List Listing)
  | map (entries : List (String × Listing))

/-- The entries of an item in some order. -/
abbrev Entries := List (String × Listing)

namespace Listing

mutual

/-- The value that is listed. -/
def value : Listing → AttributeValue
  | .flat value _ => value
  | .list items => .list (valuesOf items)
  | .map entries => .map (itemOf entries)

def valuesOf : List Listing → List AttributeValue
  | [] => []
  | item :: rest => item.value :: valuesOf rest

def itemOf : Entries → Item
  | [] => .nil
  | (name, listing) :: rest => (itemOf rest).insert name listing.value

end

mutual

/-- No map lists two entries under one name, at any depth. -/
def Distinct : Listing → Prop
  | .flat .. => True
  | .list items => DistinctItems items
  | .map entries => (entries.map Prod.fst).Nodup ∧ DistinctEntries entries

def DistinctItems : List Listing → Prop
  | [] => True
  | item :: rest => item.Distinct ∧ DistinctItems rest

def DistinctEntries : Entries → Prop
  | [] => True
  | (_, listing) :: rest => listing.Distinct ∧ DistinctEntries rest

end

mutual

/-- Equality of values: maps are equal if they have as many entries and each entry of the one is
found equal in the other. -/
def equal : Listing → Listing → Bool
  | .flat v _, .flat w _ => v = w
  | .list items, .list others => equalItems items others
  | .map entries, .map others => entries.length = others.length && equalEntries entries others
  | _, _ => false

def equalItems : List Listing → List Listing → Bool
  | [], [] => true
  | item :: rest, other :: others => item.equal other && equalItems rest others
  | _, _ => false

def equalEntries : Entries → Entries → Bool
  | [], _ => true
  | (name, listing) :: rest, others =>
    (match others.lookup name with
    | some other => listing.equal other
    | none => false) && equalEntries rest others

end

/-- The document of a listing: entries are sorted, then converted in turn, and the first failure
ends the conversion. -/
def toDocument? : Listing → Option Document
  | .flat value _ => value.toDocument?
  | .list items => Option.map .array <| items.attach.mapM fun ⟨item, _⟩ => toDocument? item
  | .map entries => Option.map .object <| (sortFields entries).attach.mapM fun ⟨entry, _⟩ =>
      (toDocument? entry.2).map (entry.1, ·)
termination_by listing => sizeOf listing
decreasing_by
  · have smaller := List.sizeOf_lt_of_mem ‹item ∈ items›
    simp only [list.sizeOf_spec]
    omega
  · have smaller := List.sizeOf_lt_of_mem (mem_sortFields.mp ‹entry ∈ sortFields entries›)
    obtain ⟨name, listing⟩ := entry
    simp only [map.sizeOf_spec, Prod.mk.sizeOf_spec] at smaller ⊢
    omega

/-- Put a field into an object: in the place of the field of its name if there is one, and else
behind the others. -/
def putField (fields : Fields) (name : String) (value : Document) : Fields :=
  if name ∈ fields.map Prod.fst then
    fields.map fun field => if field.1 = name then (name, value) else field
  else fields ++ [(name, value)]

/-- The object of an item: its names are sorted, and each in turn is looked up, converted and put
into the object. -/
def objectOf? (entries : Entries) : Option Document :=
  Option.map .object <| ((entries.map Prod.fst).insertionSort (· ≤ ·)).foldlM (fun fields name =>
    ((entries.lookup name).bind toDocument?).map (putField fields name)) []

/-- What holds of a listing whenever it holds of its items and entries, holds of all. -/
theorem induction_nested {property : Listing → Prop}
    (flat : ∀ value isFlat, property (.flat value isFlat))
    (list : ∀ items, (∀ item ∈ items, property item) → property (.list items))
    (map : ∀ entries : Entries, (∀ entry ∈ entries, property entry.2) → property (.map entries))
    (listing : Listing) : property listing :=
  @Listing.rec property (fun items => ∀ item ∈ items, property item)
    (fun entries => ∀ entry ∈ entries, property entry.2) (fun entry => property entry.2)
    flat list map
    (List.forall_mem_nil _) (fun _ _ head tail => List.forall_mem_cons.mpr ⟨head, tail⟩)
    (List.forall_mem_nil _) (fun _ _ head tail => List.forall_mem_cons.mpr ⟨head, tail⟩)
    (fun _ _ holds => holds) listing

section Parts

variable {items : List Listing} {entries : Entries} {other : Listing}

theorem value_list : (list items).value = .list (items.map value) := by
  rw [value]
  congr 1
  induction items with
  | nil => rfl
  | cons item rest ih => rw [valuesOf, ih, List.map_cons]

theorem itemOf_eq :
    itemOf entries = .ofList (entries.map fun entry => (entry.1, entry.2.value)) := by
  induction entries with
  | nil => rfl
  | cons entry rest ih => rw [itemOf, ih, List.map_cons, Ascending.ofList]

theorem distinct_list_iff : (list items).Distinct ↔ ∀ item ∈ items, item.Distinct := by
  rw [Distinct]
  induction items with
  | nil => simp [DistinctItems]
  | cons item rest ih => rw [DistinctItems, ih, List.forall_mem_cons]

theorem distinct_map_iff : (map entries).Distinct ↔
    (entries.map Prod.fst).Nodup ∧ ∀ entry ∈ entries, entry.2.Distinct := by
  have each : DistinctEntries entries ↔ ∀ entry ∈ entries, entry.2.Distinct := by
    induction entries with
    | nil => simp [DistinctEntries]
    | cons entry rest ih => rw [DistinctEntries, ih, List.forall_mem_cons]
  rw [Distinct, each]

theorem equalItems_iff {others : List Listing} : equalItems items others = true ↔
    List.Forall₂ (fun item other => item.equal other = true) items others := by
  induction items generalizing others with
  | nil => cases others <;> simp [equalItems]
  | cons item rest ih => cases others <;> simp [equalItems, ih]

theorem equalEntries_iff {others : Entries} : equalEntries entries others = true ↔
    ∀ entry ∈ entries, ∃ other, others.lookup entry.1 = some other ∧
      entry.2.equal other = true := by
  induction entries with
  | nil => simp [equalEntries]
  | cons entry rest ih =>
    rw [equalEntries, Bool.and_eq_true, ih, List.forall_mem_cons]
    cases others.lookup entry.1 <;> simp

theorem toDocument?_list (items : List Listing) :
    (list items).toDocument? = (items.mapM toDocument?).map .array := by
  simp only [toDocument?, List.mapM_subtype, List.unattach_attach]

theorem toDocument?_map (entries : Entries) : (map entries).toDocument? =
    Option.map .object ((sortFields entries).mapM fun entry =>
      entry.2.toDocument?.map (entry.1, ·)) := by
  simp only [toDocument?, List.mapM_subtype, List.unattach_attach]

end Parts

variable {a b : Listing} {entries : Entries}

/-! ### One value for equal listings -/

/-- Equal listings are of one value. -/
theorem value_eq_of_equal (distinct : a.Distinct) (distinctToo : b.Distinct)
    (equal : a.equal b = true) : a.value = b.value := by
  induction a using induction_nested generalizing b with
  | flat held isFlat =>
    cases b with
    | flat other =>
      rw [value, value]
      simpa [Listing.equal] using equal
    | _ => cases equal
  | list items ih =>
    cases b with
    | list others =>
      rw [Listing.equal, equalItems_iff] at equal
      rw [value_list, value_list, map_eq_map_of_forall₂]
      refine forall₂_imp_mem equal fun item inItems other inOthers same => ?_
      exact ih item inItems (distinct_list_iff.mp distinct item inItems)
        (distinct_list_iff.mp distinctToo other inOthers) same
    | _ => cases equal
  | map entries ih =>
    cases b with
    | map others =>
      rw [distinct_map_iff] at distinct distinctToo
      rw [Listing.equal, Bool.and_eq_true, decide_eq_true_eq, equalEntries_iff] at equal
      obtain ⟨size, found⟩ := equal
      -- All names are found among as many, so these are the names of both.
      have sameNames : (entries.map Prod.fst).Perm (others.map Prod.fst) := by
        refine (distinct.1.subperm fun name member => ?_).perm_of_length_le ?_
        · obtain ⟨entry, inEntries, rfl⟩ := List.mem_map.mp member
          obtain ⟨other, here, -⟩ := found entry inEntries
          exact List.mem_map.mpr ⟨_, mem_of_lookup_eq_some here, rfl⟩
        · rw [List.length_map, List.length_map, size]
      rw [value, value, AttributeValue.map.injEq, itemOf_eq, itemOf_eq]
      -- Maps are told apart by look-up only, and listings are looked up in each other.
      ext1 name
      rw [Ascending.get?_ofList, Ascending.get?_ofList, lookup_map, lookup_map]
      cases here : entries.lookup name with
      | none =>
        rw [lookup_eq_none_iff_not_mem, sameNames.mem_iff, ← lookup_eq_none_iff_not_mem] at here
        rw [here]
      | some listing =>
        have inEntries := mem_of_lookup_eq_some here
        obtain ⟨other, there, same⟩ := found _ inEntries
        have inOthers := mem_of_lookup_eq_some there
        rw [there, Option.map_some, Option.map_some, ih _ inEntries (distinct.2 _ inEntries)
          (distinctToo.2 _ inOthers) same]
    | _ => cases equal

/-! ### One document for one value -/

theorem toFields?_itemOf (names : (entries.map Prod.fst).Nodup)
    (each : ∀ entry ∈ entries, entry.2.value.toDocument? = entry.2.toDocument?) :
    AttributeValue.toFields? (itemOf entries) =
      (sortFields entries).mapM fun entry => entry.2.toDocument?.map (entry.1, ·) := by
  rw [itemOf_eq, AttributeValue.toFields?_ofList names]
  refine mapM_congr_of_mem fun entry member => ?_
  rw [each entry (mem_sortFields.mp member)]

/-- The order of the entries does not show in the document. -/
theorem toDocument?_value (distinct : a.Distinct) : a.value.toDocument? = a.toDocument? := by
  induction a using induction_nested with
  | flat held isFlat => rw [value, toDocument?]
  | list items ih =>
    rw [distinct_list_iff] at distinct
    have each : items.mapM (AttributeValue.toDocument? ∘ value) = items.mapM toDocument? :=
      mapM_congr_of_mem fun item member => ih item member (distinct item member)
    rw [value_list, AttributeValue.toDocument?, AttributeValue.toItems?_eq, List.mapM_map,
      toDocument?_list, each]
  | map entries ih =>
    rw [distinct_map_iff] at distinct
    rw [value, AttributeValue.toDocument?, toDocument?_map, toFields?_itemOf distinct.1
      fun entry member => ih entry member (distinct.2 entry member)]

/-- Every value is listed in some order. -/
theorem exists_listing (v : AttributeValue) : ∃ a : Listing, a.Distinct ∧ a.value = v := by
  induction v using AttributeValue.induction_nested with
  | list items ih =>
    choose listing distinct isValue using ih
    let listed := items.attach.map fun item => listing item.1 item.2
    have same : listed.map value = items := calc
      listed.map value = items.attach.map Subtype.val := by
        rw [List.map_map]
        exact List.map_congr_left fun item _ => isValue item.1 item.2
      _ = items := List.attach_map_subtype_val items
    refine ⟨.list listed, distinct_list_iff.mpr ?_, by rw [value_list, same]⟩
    exact List.forall_mem_map.mpr fun item _ => distinct item.1 item.2
  | map entries ih =>
    choose listing distinct isValue using ih
    let listed := entries.toList.attach.map fun entry => (entry.1.1, listing entry.1 entry.2)
    have same : listed.map (fun entry => (entry.1, entry.2.value)) = entries.toList := calc
      listed.map (fun entry => (entry.1, entry.2.value))
          = entries.toList.attach.map Subtype.val := by
        rw [List.map_map]
        exact List.map_congr_left fun entry _ => Prod.ext rfl (isValue entry.1 entry.2)
      _ = entries.toList := List.attach_map_subtype_val entries.toList
    have names : listed.map Prod.fst = entries.keys := by
      rw [Ascending.keys, ← same, map_fst_map]
    refine ⟨.map listed, distinct_map_iff.mpr ⟨names ▸ entries.nodup_keys, ?_⟩, ?_⟩
    · exact List.forall_mem_map.mpr fun entry _ => distinct entry.1 entry.2
    · rw [value, itemOf_eq, same, Ascending.ofList_toList]
  | _ => exact ⟨.flat _ rfl, trivial, rfl⟩

/-! ### The object of an item -/

theorem putField_of_not_mem {fields : Fields} {name : String} (fresh : name ∉ fields.map Prod.fst)
    (value : Document) : putField fields name value = fields ++ [(name, value)] :=
  if_neg fresh

/-- Fields with new names are put behind the others one by one. -/
theorem foldlM_putField (read : String → Option Document) {names : List String}
    (distinct : names.Nodup) : ∀ fields : Fields, (∀ name ∈ names, name ∉ fields.map Prod.fst) →
      names.foldlM (fun fields name => (read name).map (putField fields name)) fields =
        (names.mapM fun name => (read name).map (name, ·)).map (fields ++ ·) := by
  induction names with
  | nil => simp
  | cons name rest ih =>
    intro fields fresh
    obtain ⟨notInRest, distinctRest⟩ := List.nodup_cons.mp distinct
    obtain ⟨head, tail⟩ := List.forall_mem_cons.mp fresh
    rw [List.foldlM_cons, List.mapM_cons]
    cases read name with
    | none => rfl
    | some value =>
      have stillFresh : ∀ other ∈ rest, other ∉ (fields ++ [(name, value)]).map Prod.fst := by
        intro other inRest
        rw [List.map_append, List.mem_append, not_or]
        refine ⟨tail other inRest, fun here => notInRest ?_⟩
        obtain rfl : other = name := List.mem_singleton.mp here
        exact inRest
      rw [Option.map_some, putField_of_not_mem head, Option.bind_eq_bind, Option.bind_some,
        ih distinctRest _ stillFresh]
      cases rest.mapM fun name => (read name).map (name, ·) <;> simp

/-- The two ways to make an object of entries agree. -/
theorem objectOf?_eq (names : (entries.map Prod.fst).Nodup) :
    objectOf? entries = (map entries).toDocument? := by
  have sorted : (entries.map Prod.fst).insertionSort (· ≤ ·) = (sortFields entries).map Prod.fst :=
    (List.map_insertionSort NameLE (· ≤ ·) Prod.fst entries fun _ _ _ _ => Iff.rfl).symm
  have distinct : ((entries.map Prod.fst).insertionSort (· ≤ ·)).Nodup :=
    (List.perm_insertionSort _ _).nodup_iff.mpr names
  -- No name occurs twice, so every field is put behind those before it.
  rw [objectOf?, foldlM_putField _ distinct [] (by simp), toDocument?_map, sorted, List.mapM_map,
    mapM_congr_of_mem (g := fun entry => entry.2.toDocument?.map (entry.1, ·))]
  · simp
  · intro entry member
    rw [Function.comp_apply, lookup_eq_some_of_mem names (mem_sortFields.mp member),
      Option.bind_some]

/-! ### Numbers -/

/-- The texts that a listing holds as numbers or members of number sets, at any depth. -/
inductive HoldsNumber (text : String) : Listing → Prop
  | number (isFlat : (AttributeValue.number text).isFlat = true) :
      HoldsNumber text (.flat (.number text) isFlat)
  | member {members : List String} (isMember : text ∈ members)
      (isFlat : (AttributeValue.numberSet members).isFlat = true) :
      HoldsNumber text (.flat (.numberSet members) isFlat)
  | item {items : List Listing} {item : Listing} (inItems : item ∈ items)
      (holds : HoldsNumber text item) : HoldsNumber text (.list items)
  | entry {entries : Entries} {entry : String × Listing} (inEntries : entry ∈ entries)
      (holds : HoldsNumber text entry.2) : HoldsNumber text (.map entries)

theorem holdsNumber_list_iff {text : String} {items : List Listing} :
    (list items).HoldsNumber text ↔ ∃ item ∈ items, item.HoldsNumber text := by
  constructor
  · rintro (_ | _ | ⟨inItems, holds⟩ | _)
    exact ⟨_, inItems, holds⟩
  · rintro ⟨item, inItems, holds⟩
    exact .item inItems holds

theorem holdsNumber_map_iff {text : String} :
    (map entries).HoldsNumber text ↔ ∃ entry ∈ entries, entry.2.HoldsNumber text := by
  constructor
  · rintro (_ | _ | _ | ⟨inEntries, holds⟩)
    exact ⟨_, inEntries, holds⟩
  · rintro ⟨entry, inEntries, holds⟩
    exact .entry inEntries holds

/-- Nothing but a number that cannot be read stands in the way of a document. -/
theorem toDocument?_eq_none_iff :
    a.toDocument? = none ↔ ∃ text, a.HoldsNumber text ∧ Number.ofText? text = none := by
  induction a using induction_nested with
  | flat held isFlat =>
    rw [toDocument?]
    cases held with
    | number text =>
      rw [AttributeValue.toDocument?, Option.map_eq_none_iff]
      constructor
      · exact fun unread => ⟨text, .number isFlat, unread⟩
      · rintro ⟨_, ⟨⟩, unread⟩
        exact unread
    | numberSet members =>
      rw [AttributeValue.toDocument?, Option.map_eq_none_iff, mapM_eq_none_iff]
      constructor
      · rintro ⟨text, isMember, unread⟩
        exact ⟨text, .member isMember isFlat, unread⟩
      · rintro ⟨text, ⟨⟩, unread⟩
        exact ⟨text, ‹text ∈ members›, unread⟩
    | list | map => cases isFlat
    | _ =>
      refine iff_of_false (by simp [AttributeValue.toDocument?]) ?_
      rintro ⟨_, ⟨⟩, -⟩
  | list items ih =>
    rw [toDocument?_list, Option.map_eq_none_iff, mapM_eq_none_iff]
    constructor
    · rintro ⟨item, inItems, failed⟩
      obtain ⟨text, holds, unread⟩ := (ih item inItems).mp failed
      exact ⟨text, .item inItems holds, unread⟩
    · rintro ⟨text, holds, unread⟩
      obtain ⟨item, inItems, holds⟩ := holdsNumber_list_iff.mp holds
      exact ⟨item, inItems, (ih item inItems).mpr ⟨text, holds, unread⟩⟩
  | map entries ih =>
    rw [toDocument?_map, Option.map_eq_none_iff, mapM_eq_none_iff]
    simp only [mem_sortFields, Option.map_eq_none_iff]
    constructor
    · rintro ⟨entry, inEntries, failed⟩
      obtain ⟨text, holds, unread⟩ := (ih entry inEntries).mp failed
      exact ⟨text, .entry inEntries holds, unread⟩
    · rintro ⟨text, holds, unread⟩
      obtain ⟨entry, inEntries, holds⟩ := holdsNumber_map_iff.mp holds
      exact ⟨entry, inEntries, (ih entry inEntries).mpr ⟨text, holds, unread⟩⟩

end Listing

/-! ### Objects within documents -/

namespace Document

/-- A document is within itself, and within an array or object if it is within an item or field. -/
inductive Within (part : Document) : Document → Prop
  | self : Within part part
  | item {items : List Document} {item : Document} (inItems : item ∈ items)
      (within : Within part item) : Within part (.array items)
  | field {fields : Fields} {field : String × Document} (inFields : field ∈ fields)
      (within : Within part field.2) : Within part (.object fields)

theorem isSorted_of_mem_array {items : List Document} (sorted : (array items).IsSorted) :
    ∀ item ∈ items, item.IsSorted := by
  obtain ⟨distinct, same⟩ := sorted
  rw [sorted_array, array.injEq] at same
  intro item member
  refine ⟨distinct_array_iff.mp distinct item member, ?_⟩
  exact List.map_inj_left.mp (same.trans (List.map_id items).symm) item member

/-- The names of a sorted object ascend. -/
theorem pairwise_of_isSorted {fields : Fields} (sorted : (object fields).IsSorted) :
    (fields.map Prod.fst).Pairwise (· < ·) := by
  obtain ⟨distinct, same⟩ := sorted
  rw [sorted_object, object.injEq] at same
  have ordered : (fields.map Prod.fst).Pairwise (· ≤ ·) := by
    rw [List.pairwise_map, ← same]
    exact List.pairwise_insertionSort NameLE _
  exact ordered.imp₂ (fun _ _ => Std.lt_of_le_of_ne) (distinct_object_iff.mp distinct).1

theorem isSorted_of_mem_object {fields : Fields} (sorted : (object fields).IsSorted) :
    ∀ field ∈ fields, field.2.IsSorted := by
  have ascending := pairwise_of_isSorted sorted
  obtain ⟨distinct, same⟩ := sorted
  rw [← map_fst_map sorted] at ascending
  -- Sorting the fields does nothing, so it is the fields that are sorted.
  rw [sorted_object, object.injEq, sortFields_of_pairwise ascending] at same
  intro field member
  refine ⟨(distinct_object_iff.mp distinct).2 field member, ?_⟩
  exact congrArg Prod.snd
    (List.map_inj_left.mp (same.trans (List.map_id fields).symm) field member)

theorem isSorted_of_within {part document : Document} (within : part.Within document)
    (sorted : document.IsSorted) : part.IsSorted := by
  induction within with
  | self => exact sorted
  | item inItems _ ih => exact ih (isSorted_of_mem_array sorted _ inItems)
  | field inFields _ ih => exact ih (isSorted_of_mem_object sorted _ inFields)

end Document

namespace Listing

/-- The document of a listing does not depend on the order in which any of its maps list their
entries, and the fields of every object in it ascend by the bytes of their names. There is none just
if a number cannot be read, at any depth. The object of an item is the document of the map of its
entries. All of this is so of the value that is listed. -/
theorem documents_hide_entry_order {a : Listing} (distinct : a.Distinct) :
    (∀ b : Listing, b.Distinct → a.equal b = true → a.toDocument? = b.toDocument?) ∧
    (∀ document, a.toDocument? = some document →
      ∀ fields, (Document.object fields).Within document →
        (fields.map Prod.fst).Pairwise fun s t => bytesOf s < bytesOf t) ∧
    (a.toDocument? = none ↔ ∃ text, a.HoldsNumber text ∧ Number.ofText? text = none) ∧
    (∀ entries, a = .map entries → objectOf? entries = a.toDocument? ∧
      objectOf? entries = (itemOf entries).toDocument?) ∧
    a.toDocument? = a.value.toDocument? := by
  have sameDocument := toDocument?_value distinct
  refine ⟨fun b distinctToo equal => ?_, fun document made fields within => ?_,
    toDocument?_eq_none_iff, ?_, sameDocument.symm⟩
  · rw [← sameDocument, ← toDocument?_value distinctToo,
      value_eq_of_equal distinct distinctToo equal]
  · simp only [bytesOf_lt_iff]
    have sorted := AttributeValue.isSorted_of_toDocument? (sameDocument.trans made)
    exact Document.pairwise_of_isSorted (Document.isSorted_of_within within sorted)
  · rintro entries rfl
    have names := (distinct_map_iff.mp distinct).1
    refine ⟨objectOf?_eq names, ?_⟩
    rw [objectOf?_eq names, ← sameDocument, value]
    rfl

/-- A map within a map, both listed in descending order. -/
def descending : Listing :=
  .map [
    ("b", .map [("y", .flat (.number "+7") rfl), ("x", .flat (.numberSet ["2", "1"]) rfl)]),
    ("a", .list [.flat (.null true) rfl])]

/-- The same maps, listed in ascending order. -/
def ascending : Listing :=
  .map [
    ("a", .list [.flat (.null true) rfl]),
    ("b", .map [("x", .flat (.numberSet ["2", "1"]) rfl), ("y", .flat (.number "+7") rfl)])]

theorem descending_hides_entry_order :
    descending.Distinct ∧ ascending.Distinct ∧ descending.equal ascending = true ∧
      descending.toDocument? = ascending.toDocument? ∧
      descending.toDocument? = some (.object [
        ("a", .array [.null]),
        ("b", .object [
          ("x", .array [.number (.whole 2 (by decide)), .number (.whole 1 (by decide))]),
          ("y", .number (.whole 7 (by decide)))])]) := by
  have distinct : descending.Distinct := by
    simp [descending, Distinct, DistinctItems, DistinctEntries]
  have distinctToo : ascending.Distinct := by
    simp [ascending, Distinct, DistinctItems, DistinctEntries]
  have equal : descending.equal ascending = true := by decide +kernel
  obtain ⟨hides, -, -, -, sameDocument⟩ := documents_hide_entry_order distinct
  refine ⟨distinct, distinctToo, equal, hides ascending distinctToo equal, ?_⟩
  rw [sameDocument]
  rfl

end Listing

end DocQuery
