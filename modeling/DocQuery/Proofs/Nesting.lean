import DocQuery.AttributeValue.Document
import DocQuery.Wire.AttributeValue
import Mathlib.Data.List.Forall2

/-!
# DocQuery.Proofs.Nesting

Documents and attribute values that hold others of their kind, at any depth.

What is computed by recursion through the items of an array and the fields of an object is here
stated item by item and field by field, and there is one induction for documents and one for values
in place of a recursion for each of their parts.
-/

namespace DocQuery

/-! ### Induction -/

/-- What holds of a document whenever it holds of its items and fields, holds of all. -/
theorem Document.induction_nested {property : Document → Prop} (null : property .null)
    (bool : ∀ value, property (.bool value)) (number : ∀ value, property (.number value))
    (string : ∀ value, property (.string value))
    (array : ∀ items, (∀ item ∈ items, property item) → property (.array items))
    (object : ∀ fields : Fields, (∀ field ∈ fields, property field.2) → property (.object fields))
    (document : Document) : property document :=
  @Document.rec property (fun items => ∀ item ∈ items, property item)
    (fun fields => ∀ field ∈ fields, property field.2) (fun field => property field.2)
    null bool number string array object
    (List.forall_mem_nil _) (fun _ _ head tail => List.forall_mem_cons.mpr ⟨head, tail⟩)
    (List.forall_mem_nil _) (fun _ _ head tail => List.forall_mem_cons.mpr ⟨head, tail⟩)
    (fun _ _ holds => holds) document

/-- What holds of a value whenever it holds of its items and entries, holds of all. -/
theorem AttributeValue.induction_nested {property : AttributeValue → Prop}
    (string : ∀ text, property (.string text)) (number : ∀ text, property (.number text))
    (binary : ∀ bytes, property (.binary bytes))
    (stringSet : ∀ members, property (.stringSet members))
    (numberSet : ∀ members, property (.numberSet members))
    (binarySet : ∀ members, property (.binarySet members))
    (bool : ∀ value, property (.bool value)) (null : ∀ marker, property (.null marker))
    (list : ∀ items, (∀ item ∈ items, property item) → property (.list items))
    (map : ∀ entries : Item, (∀ entry ∈ entries.toList, property entry.2) →
      property (.map entries))
    (value : AttributeValue) : property value :=
  @AttributeValue.rec property (fun items => ∀ item ∈ items, property item)
    (fun _ entries => ∀ entry ∈ entries.toList, property entry.2)
    string number binary stringSet numberSet binarySet bool null list map
    (List.forall_mem_nil _) (fun _ _ head tail => List.forall_mem_cons.mpr ⟨head, tail⟩)
    (List.forall_mem_nil _) (fun _ _ _ _ head tail => List.forall_mem_cons.mpr ⟨head, tail⟩)
    value

/-! ### Item by item -/

theorem mapM_eq_some_iff {α β : Type} {f : α → Option β} {items : List α} {results : List β} :
    items.mapM f = some results ↔
      List.Forall₂ (fun item result => f item = some result) items results := by
  induction items generalizing results with
  | nil => cases results <;> simp
  | cons item rest ih =>
    simp only [List.mapM_cons, Option.bind_eq_bind, Option.bind_eq_some_iff, Option.pure_def,
      Option.some.injEq, ih]
    constructor
    · rintro ⟨result, head, others, tail, rfl⟩
      exact .cons head tail
    · rintro (_ | ⟨head, tail⟩)
      exact ⟨_, head, _, tail, rfl⟩

/-- Where each item is read from one text only, so are all of them. -/
theorem mapM_eq_some_iff_eq_map {α β : Type} {f : α → Option β} {g : β → α} {items : List α}
    {results : List β} (each : ∀ item result, f item = some result ↔ item = g result) :
    items.mapM f = some results ↔ items = results.map g := by
  simp only [mapM_eq_some_iff, each]
  rw [← List.forall₂_map_right_iff, List.forall₂_eq_eq_eq]

theorem mapM_congr_of_mem {α β : Type} {f g : α → Option β} {items : List α}
    (same : ∀ item ∈ items, f item = g item) : items.mapM f = items.mapM g := by
  induction items with
  | nil => rfl
  | cons item rest ih =>
    obtain ⟨head, tail⟩ := List.forall_mem_cons.mp same
    rw [List.mapM_cons, List.mapM_cons, head, ih tail]

/-- What is undone item by item is undone for all items. -/
theorem mapM_map_eq_some {α β : Type} {f : β → Option α} {g : α → β} {items : List α}
    (each : ∀ item ∈ items, f (g item) = some item) : (items.map g).mapM f = some items := by
  rw [mapM_eq_some_iff, List.forall₂_map_left_iff, List.forall₂_same]
  exact each

theorem exists_mapM_eq_some_iff {α β : Type} {f : α → Option β} {items : List α} :
    (∃ results, items.mapM f = some results) ↔ ∀ item ∈ items, ∃ result, f item = some result := by
  induction items with
  | nil => simp
  | cons item rest ih =>
    rw [List.forall_mem_cons, ← ih]
    constructor
    · rintro ⟨results, read⟩
      rcases mapM_eq_some_iff.mp read with _ | ⟨head, tail⟩
      exact ⟨⟨_, head⟩, _, mapM_eq_some_iff.mpr tail⟩
    · rintro ⟨⟨result, head⟩, results, tail⟩
      exact ⟨result :: results, mapM_eq_some_iff.mpr (.cons head (mapM_eq_some_iff.mp tail))⟩

theorem mapM_eq_none_iff {α β : Type} {f : α → Option β} {items : List α} :
    items.mapM f = none ↔ ∃ item ∈ items, f item = none := by
  simp only [← Option.not_isSome_iff_eq_none, Option.isSome_iff_exists, exists_mapM_eq_some_iff,
    not_forall, exists_prop]

/-- What is made of something that can be read as one value or not at all. -/
theorem map_eq_some_iff_of_read {α β : Type} {f : α → β} {reading : Option α} {suits : Prop}
    {value : α} {result : β} (each : ∀ read, reading = some read ↔ suits ∧ read = value) :
    reading.map f = some result ↔ suits ∧ result = f value := by
  rw [Option.map_eq_some_iff]
  constructor
  · rintro ⟨read, here, rfl⟩
    obtain ⟨holds, rfl⟩ := (each read).mp here
    exact ⟨holds, rfl⟩
  · rintro ⟨holds, rfl⟩
    exact ⟨value, (each value).mpr ⟨holds, rfl⟩, rfl⟩

/-- Where each item is read as one result or not at all, so are all of them. -/
theorem mapM_eq_some_iff_of_each {α β : Type} {f : α → Option β} {suits : α → Prop} {result : α → β}
    {items : List α} {results : List β}
    (each : ∀ item ∈ items, ∀ read, f item = some read ↔ suits item ∧ read = result item) :
    items.mapM f = some results ↔ (∀ item ∈ items, suits item) ∧ results = items.map result := by
  induction items generalizing results with
  | nil => simp [eq_comm]
  | cons item rest ih =>
    obtain ⟨head, tail⟩ := List.forall_mem_cons.mp each
    simp only [List.mapM_cons, Option.bind_eq_bind, Option.bind_eq_some_iff, Option.pure_def,
      Option.some.injEq, head, ih tail, List.forall_mem_cons, List.map_cons]
    constructor
    · rintro ⟨_, ⟨suits, rfl⟩, _, ⟨others, rfl⟩, rfl⟩
      exact ⟨⟨suits, others⟩, rfl⟩
    · rintro ⟨⟨suits, others⟩, rfl⟩
      exact ⟨_, ⟨suits, rfl⟩, _, ⟨others, rfl⟩, rfl⟩

theorem exists_mem_of_forall₂ {α β : Type} {related : α → β → Prop} {items : List α}
    {results : List β} (each : List.Forall₂ related items results) {result : β}
    (member : result ∈ results) : ∃ item ∈ items, related item result := by
  induction each with
  | nil => cases member
  | cons head _ ih =>
    rcases List.mem_cons.mp member with rfl | others
    · exact ⟨_, List.mem_cons_self, head⟩
    · obtain ⟨item, inItems, here⟩ := ih others
      exact ⟨item, List.mem_cons_of_mem _ inItems, here⟩

theorem forall₂_imp_mem {α β : Type} {related more : α → β → Prop} {items : List α}
    {results : List β} (each : List.Forall₂ related items results)
    (implies : ∀ item ∈ items, ∀ result ∈ results, related item result → more item result) :
    List.Forall₂ more items results := by
  induction each with
  | nil => exact .nil
  | cons head _ ih =>
    refine .cons (implies _ List.mem_cons_self _ List.mem_cons_self head) (ih ?_)
    intro item member result resultMember
    exact implies item (List.mem_cons_of_mem _ member) result
      (List.mem_cons_of_mem _ resultMember)

theorem map_eq_map_of_forall₂ {α β γ : Type} {f : α → γ} {g : β → γ} {items : List α}
    {results : List β} (each : List.Forall₂ (fun item result => f item = g result) items results) :
    items.map f = results.map g := by
  rw [← List.forall₂_eq_eq_eq, List.forall₂_map_left_iff, List.forall₂_map_right_iff]
  exact each

/-- What is read of fields keeps their names. -/
theorem map_fst_eq_of_forall₂ {α β : Type} {f : α → Option β} {fields : List (String × α)}
    {results : List (String × β)} (each : List.Forall₂
      (fun field result => (f field.2).map (field.1, ·) = some result) fields results) :
    fields.map Prod.fst = results.map Prod.fst := by
  apply map_eq_map_of_forall₂
  refine each.imp fun field result read => ?_
  obtain ⟨value, -, rfl⟩ := Option.map_eq_some_iff.mp read
  rfl

namespace AttributeValue

theorem ofItems_eq (items : List Document) : ofItems items = items.map ofDocument := by
  induction items with
  | nil => rfl
  | cons item rest ih => rw [ofItems, ih, List.map_cons]

theorem ofFields_eq (fields : Fields) :
    ofFields fields = .ofList (fields.map fun field => (field.1, ofDocument field.2)) := by
  induction fields with
  | nil => rfl
  | cons field rest ih => rw [ofFields, ih, List.map_cons, Ascending.ofList]

theorem toItems?_eq (items : List AttributeValue) : toItems? items = items.mapM toDocument? := by
  induction items with
  | nil => rfl
  | cons item rest ih => rw [toItems?, ih, List.mapM_cons]

theorem toFields?_eq {bound : Option String} (entries : Ascending AttributeValue bound) :
    toFields? entries =
      entries.toList.mapM fun entry => (toDocument? entry.2).map (entry.1, ·) := by
  induction entries with
  | nil => rfl
  | cons name _ value rest ih =>
    rw [toFields?, ih, Ascending.toList, List.mapM_cons]
    cases value.toDocument? <;> rfl

theorem encodeItems_eq (items : List AttributeValue) : encodeItems items = items.map encode := by
  induction items with
  | nil => rfl
  | cons item rest ih => rw [encodeItems, ih, List.map_cons]

theorem encodeEntries_eq {bound : Option String} (entries : Ascending AttributeValue bound) :
    encodeEntries entries = entries.toList.map fun entry => (entry.1, entry.2.encode) := by
  induction entries with
  | nil => rfl
  | cons name _ value rest ih => rw [encodeEntries, ih, Ascending.toList, List.map_cons]

theorem decodeItems?_eq (items : List Document) : decodeItems? items = items.mapM decode? := by
  induction items with
  | nil => rfl
  | cons item rest ih => rw [decodeItems?, ih, List.mapM_cons]

theorem decodeEntries?_eq (fields : Fields) : decodeEntries? fields =
    (fields.mapM fun field => (decode? field.2).map (field.1, ·)).map .ofList := by
  induction fields with
  | nil => rfl
  | cons field rest ih =>
    rw [decodeEntries?, ih, List.mapM_cons]
    cases decode? field.2 with
    | none => rfl
    | some value =>
      cases rest.mapM fun field => (decode? field.2).map (field.1, ·) <;> rfl

end AttributeValue

end DocQuery
