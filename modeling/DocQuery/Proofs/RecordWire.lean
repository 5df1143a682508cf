import DocQuery.Proofs.DocumentTrip
import DocQuery.Proofs.ValueWire
import DocQuery.Proofs.Vocabulary
import DocQuery.Wire.Records

/-!
# DocQuery.Proofs.RecordWire

Requests, responses, compiled results and settings on the wire.

A record is written as an object from which fields may be left out, and is read through look-ups of
its own fields. Where each field that is left out is looked up as the value it was left out for,
nothing is lost. The readers of records are put together field by field, and so are their laws.

## Main results

`Layout.place?_eq_some_iff`: which arrays stand for records.
`Wire.IsRecord.isFaithful`: records and what they are written as are one to one.
`Wire.isNamed`: which documents are read as a value with a name.
-/

namespace DocQuery

/-! ### Values of fields -/

/-- Values of fields that are read back from what they are written as. None of them is written as
null, which stands for no value, and the fields of their objects are in order. -/
class Wire.IsLawful (α : Type) [Wire α] : Prop where
  decode?_encode : ∀ value : α, DocQuery.decode? (encode value) = some value
  encode_ne_null : ∀ value : α, encode value ≠ .null
  isSorted_encode : ∀ value : α, (encode value).IsSorted

export Wire.IsLawful (decode?_encode encode_ne_null isSorted_encode)

attribute [simp] decode?_encode

instance : Wire.IsLawful String where
  decode?_encode _ := rfl
  encode_ne_null := nofun
  isSorted_encode _ := ⟨trivial, rfl⟩

instance : Wire.IsLawful Bool where
  decode?_encode _ := rfl
  encode_ne_null := nofun
  isSorted_encode _ := ⟨trivial, rfl⟩

instance : Wire.IsLawful Int32 where
  decode?_encode value := by
    have lower := value.le_toInt
    have upper := value.toInt_lt
    have fits : Int32.minValue.toInt ≤ value.toInt ∧ value.toInt ≤ Int32.maxValue.toInt := by
      rw [Int32.toInt_minValue, Int32.toInt_maxValue]
      omega
    change (if _ then some (Int32.ofInt value.toInt) else none) = some value
    rw [if_pos fits, Int32.ofInt_toInt]
  encode_ne_null := nofun
  isSorted_encode _ := ⟨trivial, rfl⟩

instance : Wire.IsLawful ReturnValue where
  decode?_encode value := by cases value <;> rfl
  encode_ne_null := nofun
  isSorted_encode _ := ⟨trivial, rfl⟩

instance : Wire.IsLawful Select where
  decode?_encode value := by cases value <;> rfl
  encode_ne_null := nofun
  isSorted_encode _ := ⟨trivial, rfl⟩

theorem namesOf?_eq (fields : Fields) : namesOf? fields =
    (fields.mapM fun field => (decode? field.2).map (field.1, ·)).map .ofList := by
  induction fields with
  | nil => rfl
  | cons field rest ih =>
    rw [namesOf?, ih, List.mapM_cons]
    cases (decode? field.2 : Option String) with
    | none => rfl
    | some value =>
      cases rest.mapM fun field => (decode? field.2 : Option String).map (field.1, ·) <;> rfl

theorem Ascending.toList_mapValues {α β : Type} (f : α → β) {bound : Option String}
    (m : Ascending α bound) :
    (m.mapValues f).toList = m.toList.map fun entry => (entry.1, f entry.2) := by
  induction m with
  | nil => rfl
  | cons key _ value rest ih => rw [mapValues, toList, toList, ih, List.map_cons]

/-- The entries of a map are read back one by one. -/
theorem mapM_entries_eq_some {α : Type} {write : α → Document} {read : Document → Option α}
    {entries : List (String × α)} (each : ∀ entry ∈ entries, read (write entry.2) = some entry.2) :
    (entries.map fun entry => (entry.1, write entry.2)).mapM
      (fun field => (read field.2).map (field.1, ·)) = some entries := by
  apply mapM_map_eq_some
  intro entry member
  rw [each entry member]
  rfl

/-- The object of a map is sorted if its values are. -/
theorem isSorted_entries {α : Type} {write : α → Document} (m : KeyMap α)
    (each : ∀ entry ∈ m.toList, (write entry.2).IsSorted) :
    (Document.object (m.toList.map fun entry => (entry.1, write entry.2))).IsSorted := by
  apply Document.isSorted_object
  · rw [List.map_map]
    exact m.pairwise_keys
  · exact List.forall_mem_map.mpr each

instance : Wire.IsLawful (KeyMap String) where
  decode?_encode names := by
    change namesOf? (names.mapValues encode).toList = some names
    have each := mapM_entries_eq_some fun entry (_ : entry ∈ names.toList) =>
      decode?_encode entry.2
    rw [namesOf?_eq, Ascending.toList_mapValues, each, Option.map_some, Ascending.ofList_toList]
  encode_ne_null := nofun
  isSorted_encode names := by
    simp only [encode, Ascending.toList_mapValues]
    exact isSorted_entries names fun entry _ => ⟨trivial, rfl⟩

theorem AttributeValue.isSorted_encode (value : AttributeValue) : value.encode.IsSorted := by
  have texts (items : List String) : (Document.array (items.map .string)).IsSorted :=
    Document.isSorted_array (List.forall_mem_map.mpr fun _ _ => ⟨trivial, rfl⟩)
  have sole (type : String) {document : Document} (sorted : document.IsSorted) :
      (Document.object [(type, document)]).IsSorted :=
    Document.isSorted_object (List.pairwise_singleton _ _)
      (List.forall_mem_cons.mpr ⟨sorted, List.forall_mem_nil _⟩)
  induction value using induction_nested with
  | string | number | binary | bool | null => exact sole _ ⟨trivial, rfl⟩
  | stringSet members | numberSet members => exact sole _ (texts members)
  | binarySet members =>
    exact sole _ (Document.isSorted_array (List.forall_mem_map.mpr fun _ _ => ⟨trivial, rfl⟩))
  | list items ih =>
    rw [encode, encodeItems_eq]
    exact sole _ (Document.isSorted_array (List.forall_mem_map.mpr ih))
  | map entries ih =>
    rw [encode, encodeEntries_eq]
    exact sole _ (isSorted_entries entries ih)

instance : Wire.IsLawful Item where
  decode?_encode item := by
    change AttributeValue.decodeEntries? (AttributeValue.encodeEntries item) = some item
    have each := mapM_entries_eq_some fun entry (_ : entry ∈ item.toList) =>
      AttributeValue.decode?_encode entry.2
    rw [AttributeValue.decodeEntries?_eq, AttributeValue.encodeEntries_eq, each, Option.map_some,
      Ascending.ofList_toList]
  encode_ne_null := nofun
  isSorted_encode item := by
    simp only [encode, AttributeValue.encodeEntries_eq]
    exact isSorted_entries item fun entry _ => AttributeValue.isSorted_encode entry.2

instance : Wire.IsLawful (List Item) where
  decode?_encode _ := mapM_map_eq_some fun item _ => decode?_encode item
  encode_ne_null := nofun
  isSorted_encode _ :=
    Document.isSorted_array (List.forall_mem_map.mpr fun item _ => isSorted_encode item)

/-! ### Fields that are written -/

open Document (field?)

namespace Fields

section Writing

/-- A document that is left out where it stands for nothing. -/
def keptUnless (empty : Bool) (document : Document) : Option Document :=
  if empty then none else some document

variable {α : Type} [Wire α] {fields others : Fields} {names more : List String} {name : String}

@[simp] theorem field?_append (fields others : Fields) (name : String) :
    field? (fields ++ others) name = (field? fields name).or (field? others name) := by
  rw [field?, field?, field?, List.find?_append, Option.map_or]

@[simp] theorem field?_cons (written : String) (document : Document) (rest : Fields)
    (name : String) : field? ((written, document) :: rest) name =
      if written = name then some document else field? rest name := by
  by_cases same : written = name <;> simp [field?, same]

@[simp] theorem field?_field (written : String) (value : α) (name : String) :
    field? (field written value) name = if written = name then some (encode value) else none :=
  field?_cons written (encode value) [] name

@[simp] theorem field?_whenPresent (written : String) (value : Option α) (name : String) :
    field? (whenPresent written value) name =
      if written = name then value.map encode else none := by
  cases value with
  | none => exact (ite_self none).symm
  | some value => exact field?_field written value name

@[simp] theorem field?_unlessEmpty (empty : Bool) (written : String) (value : α) (name : String) :
    field? (unlessEmpty empty written value) name =
      if written = name then keptUnless empty (encode value) else none := by
  cases empty with
  | true => exact (ite_self none).symm
  | false => exact field?_field written value name

/-- Some fields with these names, in this order, and with sorted values. -/
structure AreWritten (names : List String) (fields : Fields) : Prop where
  sublist : (fields.map Prod.fst).Sublist names
  isSorted : ∀ field ∈ fields, field.2.IsSorted

theorem AreWritten.append (first : AreWritten names fields) (second : AreWritten more others) :
    AreWritten (names ++ more) (fields ++ others) where
  sublist := by
    rw [List.map_append]
    exact first.sublist.append second.sublist
  isSorted := List.forall_mem_append.mpr ⟨first.isSorted, second.isSorted⟩

variable [Wire.IsLawful α]

theorem areWritten_field (name : String) (value : α) : AreWritten [name] (field name value) where
  sublist := .refl _
  isSorted := List.forall_mem_cons.mpr ⟨isSorted_encode value, List.forall_mem_nil _⟩

theorem areWritten_whenPresent (name : String) (value : Option α) :
    AreWritten [name] (whenPresent name value) := by
  cases value with
  | none => exact ⟨List.nil_sublist _, List.forall_mem_nil _⟩
  | some value => exact areWritten_field name value

theorem areWritten_unlessEmpty (empty : Bool) (name : String) (value : α) :
    AreWritten [name] (unlessEmpty empty name value) := by
  cases empty with
  | true => exact ⟨List.nil_sublist _, List.forall_mem_nil _⟩
  | false => exact areWritten_field name value

/-- A missing value that is written as null. -/
theorem areWritten_orNull (name : String) (value : Option α) :
    AreWritten [name] [(name, (value.map encode).getD .null)] where
  sublist := .refl _
  isSorted := by
    refine List.forall_mem_cons.mpr ⟨?_, List.forall_mem_nil _⟩
    cases value with
    | none => exact ⟨trivial, rfl⟩
    | some value => exact isSorted_encode value

end Writing

/-! ### Fields that are read -/

section Reading

variable {α : Type} [Wire α] {fields : Fields} {name : String}

/-- A document that is not null. -/
def nonNull? : Document → Option Document
  | .null => none
  | document => some document

/-- A field that is there and not null. -/
def present? (fields : Fields) (name : String) : Option Document :=
  (field? fields name).bind nonNull?

theorem optional_eq : (optional fields name : Option (Option α)) =
    (present? fields name).elim (some none) fun document => (decode? document).map some := by
  rw [optional, present?]
  cases field? fields name with
  | none => rfl
  | some document => cases document <;> rfl

theorem defaulted_eq {default : α} :
    defaulted fields name default = (field? fields name).elim (some default) decode? := by
  rw [defaulted]
  cases field? fields name <;> rfl

variable [Wire.IsLawful α]

@[simp] theorem nonNull?_encode (value : α) : nonNull? (encode value) = some (encode value) := by
  unfold nonNull?
  split
  next isNull => exact absurd isNull (encode_ne_null value)
  next => rfl

/-- A value that may be missing is read back from what is written if it is present. -/
@[simp] theorem optional_map_encode (value : Option α) :
    ((value.map encode).bind nonNull?).elim (some none)
      (fun document => (decode? document).map some) = some value := by
  cases value with
  | none => rfl
  | some value =>
    rw [Option.map_some, Option.bind_some, nonNull?_encode, Option.elim_some, decode?_encode,
      Option.map_some]

/-- A value that is left out where it is empty is read back if the default is the empty one. -/
theorem defaulted_unless {value default : α} {empty : Bool}
    (isDefault : empty = true → value = default) :
    (keptUnless empty (encode value)).elim (some default) decode? = some value := by
  cases empty with
  | true => rw [isDefault rfl]; rfl
  | false => exact decode?_encode value

end Reading

end Fields

theorem Ascending.eq_empty_of_isEmpty {α : Type} {m : KeyMap α} (empty : m.isEmpty = true) :
    m = ∅ := by
  cases m with
  | nil => rfl
  | cons => cases empty

open Fields

/-! ### Records -/

/-- What is seen of a field. Where a value may be missing, it is not told from null. -/
def Presence.seen? (fields : Fields) (name : String) : Presence → Option Document
  | .optional => present? fields name
  | .required | .defaulted => field? fields name

namespace Layout

def names (layout : Layout) : List String :=
  layout.map Prod.fst

/-- Whether objects differ in unknown fields, in nulls and in the order of fields only. -/
def Agree (layout : Layout) (fields others : Fields) : Prop :=
  ∀ field ∈ layout, field.2.seen? fields field.1 = field.2.seen? others field.1

/-- The items of an array stand for the first fields, and the fields behind them have a default. -/
theorem place?_eq_some_iff {layout : Layout} {items : List Document} {fields : Fields} :
    layout.place? items = some fields ↔
      items.length ≤ layout.length ∧ (∀ field ∈ layout.drop items.length, field.2 = .defaulted) ∧
        fields = layout.names.zip items := by
  induction layout generalizing items fields with
  | nil => cases items <;> simp [place?, eq_comm]
  | cons field rest ih =>
    obtain ⟨name, presence⟩ := field
    cases items with
    | nil =>
      -- The items are used up, so all fields from here on are left out.
      have behind := @ih [] fields
      cases presence <;> simp [place?, behind]
    | cons item items =>
      rw [place?, Option.map_eq_some_iff]
      constructor
      · rintro ⟨others, placed, rfl⟩
        obtain ⟨few, behind, rfl⟩ := ih.mp placed
        exact ⟨Nat.succ_le_succ few, behind, rfl⟩
      · rintro ⟨few, behind, rfl⟩
        exact ⟨_, ih.mpr ⟨Nat.le_of_succ_le_succ few, behind, rfl⟩, rfl⟩

end Layout

namespace RecordReader

/-- What a reader does with the fields of its layout, and that it looks at nothing else. -/
class IsLawful {α : Type} (reader : RecordReader α) : Prop where
  /-- Nothing is read but the fields of the layout. -/
  reads : ∀ {fields others : Fields}, reader.layout.Agree fields others →
    reader.read fields = reader.read others
  /-- Nothing is read where a required field is missing. -/
  needs : ∀ {fields : Fields} {name : String}, (name, .required) ∈ reader.layout →
    field? fields name = none → reader.read fields = none

section Fields

variable {α : Type} [Wire α] (name : String) {fields : Fields}

@[simp] theorem read_required : (required name : RecordReader α).read fields =
    (field? fields name).bind DocQuery.decode? := rfl

@[simp] theorem read_optional : (optional name : RecordReader (Option α)).read fields =
    (present? fields name).elim (some none) fun document => (DocQuery.decode? document).map some :=
  optional_eq

@[simp] theorem read_defaulted {default : α} : (defaulted name default).read fields =
    (field? fields name).elim (some default) DocQuery.decode? :=
  defaulted_eq

instance : (required name : RecordReader α).IsLawful where
  reads agree := by
    have same := agree (name, .required) List.mem_cons_self
    simp only [Presence.seen?] at same
    rw [read_required, read_required, same]
  needs member missing := by
    obtain ⟨rfl, -⟩ := Prod.mk.inj (List.mem_singleton.mp member)
    rw [read_required, missing, Option.bind_none]

instance : (optional name : RecordReader (Option α)).IsLawful where
  reads agree := by
    have same := agree (name, .optional) List.mem_cons_self
    simp only [Presence.seen?] at same
    rw [read_optional, read_optional, same]
  needs member := by simp [optional] at member

instance (default : α) : (defaulted name default).IsLawful where
  reads agree := by
    have same := agree (name, .defaulted) List.mem_cons_self
    simp only [Presence.seen?] at same
    rw [read_defaulted, read_defaulted, same]
  needs member := by simp [defaulted] at member

end Fields

section Sequences

variable {α β : Type} {f : α → β} {first : RecordReader (α → β)} {second : RecordReader α}
  {fields : Fields}

@[simp] theorem read_map : (f <$> second).read fields = (second.read fields).map f := rfl

@[simp] theorem read_seq : (first <*> second).read fields =
    (first.read fields).bind fun f => (second.read fields).map f := rfl

instance [second.IsLawful] : (f <$> second).IsLawful where
  reads agree := congrArg (Option.map f) (IsLawful.reads agree)
  needs member missing := congrArg (Option.map f) (IsLawful.needs member missing)

instance [first.IsLawful] [second.IsLawful] : (first <*> second).IsLawful where
  reads agree := by
    obtain ⟨inFirst, inSecond⟩ := List.forall_mem_append.mp agree
    rw [read_seq, read_seq, IsLawful.reads inFirst, IsLawful.reads inSecond]
  needs member missing := by
    -- One of the two parts has the field that is missing, and both are needed.
    rw [read_seq]
    rcases List.mem_append.mp member with inFirst | inSecond
    · rw [IsLawful.needs inFirst missing, Option.bind_none]
    · simp [IsLawful.needs inSecond missing]

end Sequences

end RecordReader

/-- A type whose values are written as records. -/
structure Wire.IsRecord (layout : Layout) (α : Type) [Wire α] : Prop where
  distinct : layout.names.Nodup
  /-- The fields that are written are in the order of the layout. -/
  written : ∀ value : α, ∃ fields, encode value = .object fields ∧ AreWritten layout.names fields
  /-- Fields that are left out are restored. -/
  restores : ∀ value : α, DocQuery.decode? (encode value) = some value
  /-- Records are read field by field. -/
  read : ∃ reader : RecordReader α,
    reader.IsLawful ∧ reader.layout = layout ∧ Wire.decode? = reader.decode?

def UpdateRequest.layout : Layout :=
  [("TableName", .required), ("Key", .required), ("UpdateExpression", .optional),
    ("ConditionExpression", .optional), ("ExpressionAttributeNames", .defaulted),
    ("ExpressionAttributeValues", .defaulted), ("ReturnValues", .optional)]

theorem UpdateRequest.isRecord : Wire.IsRecord layout UpdateRequest where
  distinct := by decide
  written _ :=
    ⟨_, rfl, (areWritten_field _ _).append (areWritten_field _ _)
      |>.append (areWritten_whenPresent _ _) |>.append (areWritten_whenPresent _ _)
      |>.append (areWritten_unlessEmpty _ _ _) |>.append (areWritten_unlessEmpty _ _ _)
      |>.append (areWritten_whenPresent _ _)⟩
  restores request := by
    change reader.read _ = some request
    simp [reader, present?, defaulted_unless Ascending.eq_empty_of_isEmpty]
  read := ⟨reader, by unfold reader; infer_instance, rfl, rfl⟩

def DeleteRequest.layout : Layout :=
  [("TableName", .required), ("Key", .required), ("ConditionExpression", .optional),
    ("ExpressionAttributeNames", .defaulted), ("ExpressionAttributeValues", .defaulted),
    ("ReturnValues", .optional)]

theorem DeleteRequest.isRecord : Wire.IsRecord layout DeleteRequest where
  distinct := by decide
  written _ :=
    ⟨_, rfl, (areWritten_field _ _).append (areWritten_field _ _)
      |>.append (areWritten_whenPresent _ _) |>.append (areWritten_unlessEmpty _ _ _)
      |>.append (areWritten_unlessEmpty _ _ _) |>.append (areWritten_whenPresent _ _)⟩
  restores request := by
    change reader.read _ = some request
    simp [reader, present?, defaulted_unless Ascending.eq_empty_of_isEmpty]
  read := ⟨reader, by unfold reader; infer_instance, rfl, rfl⟩

def QueryRequest.layout : Layout :=
  [("TableName", .required), ("IndexName", .optional), ("KeyConditionExpression", .optional),
    ("FilterExpression", .optional), ("ProjectionExpression", .optional),
    ("ExpressionAttributeNames", .defaulted), ("ExpressionAttributeValues", .defaulted),
    ("ScanIndexForward", .optional), ("Limit", .optional), ("Select", .optional),
    ("ConsistentRead", .optional)]

theorem QueryRequest.isRecord : Wire.IsRecord layout QueryRequest where
  distinct := by decide
  written _ :=
    ⟨_, rfl, (areWritten_field _ _).append (areWritten_whenPresent _ _)
      |>.append (areWritten_whenPresent _ _) |>.append (areWritten_whenPresent _ _)
      |>.append (areWritten_whenPresent _ _) |>.append (areWritten_unlessEmpty _ _ _)
      |>.append (areWritten_unlessEmpty _ _ _) |>.append (areWritten_whenPresent _ _)
      |>.append (areWritten_whenPresent _ _) |>.append (areWritten_whenPresent _ _)
      |>.append (areWritten_whenPresent _ _)⟩
  restores request := by
    change reader.read _ = some request
    simp [reader, present?, defaulted_unless Ascending.eq_empty_of_isEmpty]
  read := ⟨reader, by unfold reader; infer_instance, rfl, rfl⟩

def ScanRequest.layout : Layout :=
  [("TableName", .required), ("IndexName", .optional), ("FilterExpression", .optional),
    ("ProjectionExpression", .optional), ("ExpressionAttributeNames", .defaulted),
    ("ExpressionAttributeValues", .defaulted), ("Limit", .optional), ("Select", .optional),
    ("ConsistentRead", .optional)]

theorem ScanRequest.isRecord : Wire.IsRecord layout ScanRequest where
  distinct := by decide
  written _ :=
    ⟨_, rfl, (areWritten_field _ _).append (areWritten_whenPresent _ _)
      |>.append (areWritten_whenPresent _ _) |>.append (areWritten_whenPresent _ _)
      |>.append (areWritten_unlessEmpty _ _ _) |>.append (areWritten_unlessEmpty _ _ _)
      |>.append (areWritten_whenPresent _ _) |>.append (areWritten_whenPresent _ _)
      |>.append (areWritten_whenPresent _ _)⟩
  restores request := by
    change reader.read _ = some request
    simp [reader, present?, defaulted_unless Ascending.eq_empty_of_isEmpty]
  read := ⟨reader, by unfold reader; infer_instance, rfl, rfl⟩

def WriteResponse.layout : Layout :=
  [("Attributes", .defaulted)]

theorem WriteResponse.isRecord : Wire.IsRecord layout WriteResponse where
  distinct := by decide
  written _ := ⟨_, rfl, areWritten_unlessEmpty _ _ _⟩
  restores response := by
    change reader.read _ = some response
    simp [reader, defaulted_unless Ascending.eq_empty_of_isEmpty]
  read := ⟨reader, by unfold reader; infer_instance, rfl, rfl⟩

def ReadResponse.layout : Layout :=
  [("Items", .defaulted), ("Count", .defaulted), ("ScannedCount", .defaulted),
    ("LastEvaluatedKey", .defaulted)]

theorem ReadResponse.isRecord : Wire.IsRecord layout ReadResponse where
  distinct := by decide
  written _ :=
    ⟨_, rfl, (areWritten_unlessEmpty _ _ _).append (areWritten_field _ _)
      |>.append (areWritten_field _ _) |>.append (areWritten_unlessEmpty _ _ _)⟩
  restores response := by
    change reader.read _ = some response
    simp [reader, defaulted_unless List.isEmpty_iff.mp,
      defaulted_unless Ascending.eq_empty_of_isEmpty]
  read := ⟨reader, by unfold reader; infer_instance, rfl, rfl⟩

def CompiledCondition.layout : Layout :=
  [("ConditionExpression", .required), ("ExpressionAttributeNames", .required),
    ("ExpressionAttributeValues", .required)]

theorem CompiledCondition.isRecord : Wire.IsRecord layout CompiledCondition where
  distinct := by decide
  written _ :=
    ⟨_, rfl, (areWritten_field _ _).append (areWritten_field _ _)
      |>.append (areWritten_field _ _)⟩
  restores compiled := by
    change reader.read _ = some compiled
    simp [reader]
  read := ⟨reader, by unfold reader; infer_instance, rfl, rfl⟩

def CompiledUpdate.layout : Layout :=
  [("UpdateExpression", .required), ("ExpressionAttributeNames", .required),
    ("ExpressionAttributeValues", .required)]

theorem CompiledUpdate.isRecord : Wire.IsRecord layout CompiledUpdate where
  distinct := by decide
  written _ :=
    ⟨_, rfl, (areWritten_field _ _).append (areWritten_field _ _)
      |>.append (areWritten_field _ _)⟩
  restores compiled := by
    change reader.read _ = some compiled
    simp [reader]
  read := ⟨reader, by unfold reader; infer_instance, rfl, rfl⟩

def Config.layout : Layout :=
  [("tablePrefix", .optional), ("prefixDelimiter", .required)]

theorem Config.isRecord : Wire.IsRecord layout Config where
  distinct := by decide
  written _ :=
    ⟨_, rfl, (areWritten_orNull _ _).append (areWritten_field _ _)⟩
  restores config := by
    obtain ⟨qualifier, delimiter⟩ := config
    change reader.read _ = some _
    cases qualifier <;> simp [reader, present?, nonNull?]
  read := ⟨reader, by unfold reader; infer_instance, rfl, rfl⟩

/-! ### The order of fields -/

theorem Document.field?_eq_some_iff {fields : Fields} (distinct : (fields.map Prod.fst).Nodup)
    {name : String} {document : Document} :
    field? fields name = some document ↔ (name, document) ∈ fields := by
  induction fields with
  | nil => simp [field?]
  | cons field rest ih =>
    obtain ⟨key, value⟩ := field
    obtain ⟨fresh, others⟩ := List.nodup_cons.mp distinct
    rw [Fields.field?_cons, List.mem_cons, Prod.mk.injEq]
    by_cases here : key = name
    · -- No later field has the name of the first one.
      have absent : (name, document) ∉ rest := by
        rw [here] at fresh
        exact fun member => fresh (List.mem_map.mpr ⟨_, member, rfl⟩)
      simp [here, absent, eq_comm]
    · simp [here, Ne.symm here, ih others]

/-- Sorted fields are found as they were. -/
theorem Document.field?_sortFields {fields : Fields} (distinct : (fields.map Prod.fst).Nodup)
    (name : String) : field? (sortFields fields) name = field? fields name := by
  have names : ((sortFields fields).map Prod.fst).Nodup :=
    ((List.perm_insertionSort NameLE fields).map Prod.fst).nodup_iff.mpr distinct
  apply Option.ext
  intro document
  rw [field?_eq_some_iff names, field?_eq_some_iff distinct, mem_sortFields]

/-- Records and what they are written as, up to the order of fields, are one to one. -/
structure Wire.IsFaithful (layout : Layout) (α : Type) [Wire α] : Prop where
  /-- The fields that are written are some of the record, in its order. -/
  written : ∀ value : α, ∃ fields, encode value = .object fields ∧
    (fields.map Prod.fst).Sublist layout.names
  /-- A record is read back from what it is written as, whatever is left out of it. -/
  restores : ∀ value : α, DocQuery.decode? (encode value) = some value
  /-- Records that are written as the same fields are equal. -/
  apart : ∀ one other : α, (encode one).sorted = (encode other).sorted → one = other
  /-- Fields in another order, unknown fields and nulls change nothing of what is read. -/
  reads : ∀ fields others : Fields, layout.Agree fields others →
    (DocQuery.decode? (.object fields) : Option α) = DocQuery.decode? (.object others)
  /-- An object in which a required field is missing is no record. -/
  needs : ∀ (fields : Fields) (name : String), (name, .required) ∈ layout →
    field? fields name = none → (DocQuery.decode? (.object fields) : Option α) = none
  /-- The items of an array are read as the fields in their order. None may be left over, and none
  may be left out but those that have a default. -/
  places : ∀ (items : List Document) (value : α), DocQuery.decode? (.array items) = some value ↔
    items.length ≤ layout.length ∧ (∀ field ∈ layout.drop items.length, field.2 = .defaulted) ∧
      DocQuery.decode? (.object (layout.names.zip items)) = some value
  /-- Nothing else is read as a record. -/
  kinds : ∀ (document : Document) (value : α), DocQuery.decode? document = some value →
    (∃ fields, document = .object fields) ∨ ∃ items, document = .array items
  /-- What is written of a record that was read is read again, and written as it was. -/
  normal : ∀ (document : Document) (value : α), DocQuery.decode? document = some value →
    ∃ again : α, DocQuery.decode? (encode value) = some again ∧
      (encode again).sorted = (encode value).sorted

namespace RecordReader

variable {α : Type} {reader : RecordReader α}

theorem decode?_array_eq_some_iff {items : List Document} {value : α} :
    reader.decode? (.array items) = some value ↔
      items.length ≤ reader.layout.length ∧
        (∀ field ∈ reader.layout.drop items.length, field.2 = .defaulted) ∧
        reader.decode? (.object (reader.layout.names.zip items)) = some value := by
  change (reader.layout.place? items).bind reader.read = some value ↔ _
  rw [Option.bind_eq_some_iff]
  constructor
  · rintro ⟨fields, placed, read⟩
    obtain ⟨few, behind, rfl⟩ := Layout.place?_eq_some_iff.mp placed
    exact ⟨few, behind, read⟩
  · rintro ⟨few, behind, read⟩
    exact ⟨_, Layout.place?_eq_some_iff.mpr ⟨few, behind, rfl⟩, read⟩

theorem isContainer_of_decode? {document : Document} {value : α}
    (read : reader.decode? document = some value) :
    (∃ fields, document = .object fields) ∨ ∃ items, document = .array items := by
  cases document with
  | object fields => exact .inl ⟨fields, rfl⟩
  | array items => exact .inr ⟨items, rfl⟩
  | _ => cases read

end RecordReader

namespace Wire.IsRecord

variable {α : Type} [Wire α] {layout : Layout}

/-- The order in which fields are written makes no difference to what is read. -/
theorem decode?_sorted (record : IsRecord layout α) (value : α) :
    DocQuery.decode? (encode value).sorted = some value := by
  obtain ⟨reader, lawful, rfl, decodes⟩ := record.read
  obtain ⟨fields, same, areWritten⟩ := record.written value
  have distinct : (fields.map Prod.fst).Nodup := areWritten.sublist.nodup record.distinct
  have unchanged : fields.map (fun field => (field.1, field.2.sorted)) = fields := by
    conv_rhs => rw [← List.map_id fields]
    apply List.map_congr_left
    intro field member
    rw [(areWritten.isSorted field member).2, id]
  have agree : reader.layout.Agree (sortFields fields) fields := by
    rintro ⟨name, presence⟩ -
    cases presence <;> simp [Presence.seen?, present?, Document.field?_sortFields distinct]
  have restored := record.restores value
  rw [same, Document.sorted_object, unchanged]
  rw [same] at restored
  rw [← restored]
  change Wire.decode? _ = Wire.decode? _
  rw [decodes]
  exact lawful.reads agree

theorem isFaithful (record : IsRecord layout α) : IsFaithful layout α := by
  obtain ⟨reader, lawful, rfl, decodes⟩ := record.read
  have decodes : ∀ document, DocQuery.decode? document = reader.decode? document :=
    congrFun decodes
  exact {
    written := fun value => by
      obtain ⟨fields, same, areWritten⟩ := record.written value
      exact ⟨fields, same, areWritten.sublist⟩
    restores := record.restores
    apart := fun one other same => by
      have read := record.decode?_sorted one
      rw [same, record.decode?_sorted other] at read
      exact (Option.some.inj read).symm
    reads := fun fields others agree => by
      rw [decodes, decodes]
      exact lawful.reads agree
    needs := fun fields name required missing => by
      rw [decodes]
      exact lawful.needs required missing
    places := fun items value => by
      rw [decodes, decodes, RecordReader.decode?_array_eq_some_iff]
    kinds := fun document value read => by
      rw [decodes] at read
      exact RecordReader.isContainer_of_decode? read
    normal := fun _ value _ => ⟨value, record.restores value, rfl⟩ }

end Wire.IsRecord

/-! ### Names as values -/

/-- Values that are no more than their names: alone, or over null as the only key. -/
def Wire.IsNamed {α : Type} [Wire α] (name : α → String) : Prop :=
  ∀ (document : Document) (value : α), DocQuery.decode? document = some value ↔
    document = .string (name value) ∨ document = .object [(name value, .null)]

theorem variantName?_eq_some_iff {document : Document} {name : String} :
    variantName? document = some name ↔
      document = .string name ∨ document = .object [(name, .null)] := by
  unfold variantName?
  split
  next => simp
  next => simp
  next notString notKey =>
    simp only [reduceCtorEq, false_iff, not_or]
    exact ⟨notString name, notKey name⟩

theorem Wire.isNamed {α : Type} [Wire α] {name : α → String} (values : List α)
    (decodes : ∀ document, (DocQuery.decode? document : Option α) =
      (variantName? document).bind (wordWith? name values))
    (injective : Function.Injective name) (complete : ∀ value, value ∈ values) :
    IsNamed name := by
  intro document value
  rw [decodes, Option.bind_eq_some_iff, ← variantName?_eq_some_iff]
  constructor
  · rintro ⟨text, named, found⟩
    rwa [← (wordWith?_eq_some_iff injective complete).mp found]
  · exact fun named => ⟨_, named, (wordWith?_eq_some_iff injective complete).mpr rfl⟩

theorem ReturnValue.isNamed : Wire.IsNamed name :=
  Wire.isNamed all (fun _ => rfl) (fun one other => by cases one <;> cases other <;> simp [name])
    fun value => by cases value <;> decide

theorem Select.isNamed : Wire.IsNamed name :=
  Wire.isNamed all (fun _ => rfl) (fun one other => by cases one <;> cases other <;> simp [name])
    fun value => by cases value <;> decide

/-- Requests, responses, compiled results and settings survive the wire although what is empty is
left out of them, and so do the values that are no more than names. Updates and deletes share one
type of response, and so do queries and scans. -/
theorem records_survive_the_wire :
    Wire.IsFaithful UpdateRequest.layout UpdateRequest ∧
    Wire.IsFaithful DeleteRequest.layout DeleteRequest ∧
    Wire.IsFaithful QueryRequest.layout QueryRequest ∧
    Wire.IsFaithful ScanRequest.layout ScanRequest ∧
    Wire.IsFaithful WriteResponse.layout WriteResponse ∧
    Wire.IsFaithful ReadResponse.layout ReadResponse ∧
    Wire.IsFaithful CompiledCondition.layout CompiledCondition ∧
    Wire.IsFaithful CompiledUpdate.layout CompiledUpdate ∧
    Wire.IsFaithful Config.layout Config ∧
    Wire.IsNamed ReturnValue.name ∧ Wire.IsNamed Select.name :=
  ⟨UpdateRequest.isRecord.isFaithful, DeleteRequest.isRecord.isFaithful,
    QueryRequest.isRecord.isFaithful, ScanRequest.isRecord.isFaithful,
    WriteResponse.isRecord.isFaithful, ReadResponse.isRecord.isFaithful,
    CompiledCondition.isRecord.isFaithful, CompiledUpdate.isRecord.isFaithful,
    Config.isRecord.isFaithful, ReturnValue.isNamed, Select.isNamed⟩

/-- An update with fields out of order, one that is unknown, one that is null and two that are left
out. -/
def scatteredUpdate : Fields :=
  [("ReturnValues", .string "ALL_NEW"), ("Retries", .bool true),
    ("Key", .object [("id", .object [("N", .string "1")])]), ("ConditionExpression", .null),
    ("ExpressionAttributeNames", .object [("#k_a", .string "a")]),
    ("UpdateExpression", .string "REMOVE #k_a"), ("TableName", .string "t")]

/-- The same update without the names of its fields. -/
def placedUpdate : List Document :=
  [.string "t", .object [("id", .object [("N", .string "1")])], .string "REMOVE #k_a", .null,
    .object [("#k_a", .string "a")], .object [], .object [("ALL_NEW", .null)]]

/-- The same update as it is written. -/
def writtenUpdate : UpdateRequest where
  table := "t"
  key := (∅ : Item).insert "id" (.number "1")
  update := some "REMOVE #k_a"
  names := (∅ : KeyMap String).insert "#k_a" "a"
  returnValues := some .allNew

theorem scatteredUpdate_survives_the_wire :
    decode? (.object scatteredUpdate) = some writtenUpdate ∧
      decode? (.array placedUpdate) = some writtenUpdate ∧
      (decode? (.array (placedUpdate.take 6)) : Option UpdateRequest) = none ∧
      decode? (.array []) = some ({} : ReadResponse) ∧
      decode? (encode writtenUpdate) = some writtenUpdate ∧
      ∃ again : UpdateRequest, decode? (encode writtenUpdate) = some again ∧
        (encode again).sorted = (encode writtenUpdate).sorted := by
  obtain ⟨update, -⟩ := records_survive_the_wire
  have read : decode? (.object scatteredUpdate) = some writtenUpdate := by decide +kernel
  have placed : decode? (.array placedUpdate) = some writtenUpdate := by
    rw [update.places]
    exact ⟨by decide, by decide, by decide +kernel⟩
  -- What is returned has no default, so it cannot be left out of an array.
  have short : (decode? (.array (placedUpdate.take 6)) : Option UpdateRequest) = none := by
    rw [Option.eq_none_iff_forall_ne_some]
    intro value isRead
    have behind := ((update.places _ value).mp isRead).2.1 ("ReturnValues", .optional) (by decide)
    cases behind
  exact ⟨read, placed, short, rfl, update.restores writtenUpdate, update.normal _ _ read⟩

end DocQuery
