import DocQuery.Database
import DocQuery.Proofs.FilterMeaning
import DocQuery.Proofs.UpdateMeaning

/-!
# DocQuery.Proofs.InsertedFields

What an insert sets.

An insert leaves out the fields that are named like a key attribute and sets the others. A name is
left out as a whole but set as a path, so whether a field changes a key attribute is decided by
what stands before the first point or bracket of its name.

## Main results

`UpdateBuilder.update_of_build`: the update of a request is that of its document.
`insert_sets_other_names`: an insert sets the fields that are not named like a key attribute, one
by one; they are those that are not on a key attribute just if names and paths agree on what a key
attribute is.
-/

namespace DocQuery

open Compile

/-! ### Attributes -/

/-- What stands in a path before its first point or bracket. -/
def attributeOf (path : String) : String :=
  String.ofList (path.toList.takeWhile fun c => c ≠ '.' ∧ c ≠ '[')

theorem head?_splitOn (text : List Char) :
    (text.splitOn '.').head? = some (text.takeWhile (· ≠ '.')) := by
  induction text with
  | nil => rfl
  | cons c rest ih =>
    rw [List.splitOn_cons_eq_if_modifyHead]
    by_cases isPoint : c = '.'
    · simp [isPoint]
    · -- The character goes to the front of the first segment.
      simp [isPoint, List.head?_modifyHead, ih]

/-- The first name of a path is the attribute that it is on. -/
theorem head?_ofText (path : String) :
    (Path.ofText path).head?.map Step.name = some (attributeOf path) := by
  have both : (fun c : Char => decide (decide (c ≠ '[') = true ∧ decide (c ≠ '.') = true)) =
      fun c => decide (c ≠ '.' ∧ c ≠ '[') := by
    funext c
    simp only [decide_eq_true_eq, and_comm]
  rw [Path.ofText, List.head?_map, head?_splitOn, Option.map_some, Option.map_some, Step.ofSegment,
    List.takeWhile_takeWhile, both, attributeOf]

theorem Path.ofText_injective : Function.Injective Path.ofText :=
  Function.LeftInverse.injective Path.text_ofText

namespace Change

variable {α : Type}

def path : Change α → Path
  | .assign path .. | .concat path .. | .remove path | .add path .. | .delete path .. => path

/-- The attribute that a change is on. -/
def attribute? (change : Change α) : Option String :=
  change.path.head?.map Step.name

/-- What `$set` asks for a field. -/
def ofField (field : String × Document) : Change AttributeValue :=
  .assignment (.ofText field.1) field.2

@[simp] theorem path_ofField (field : String × Document) :
    (ofField field).path = Path.ofText field.1 := by
  unfold ofField assignment
  split <;> rfl

theorem attribute?_ofField (field : String × Document) :
    (ofField field).attribute? = some (attributeOf field.1) := by
  rw [attribute?, path_ofField, head?_ofText]

theorem fields_set (fields : Fields) : UpdateField.ofDocument (.object [("$set", .object fields)]) =
    fields.map fun (path, operand) => ⟨.set, path, operand⟩ :=
  List.append_nil _

/-- A document with `$set` alone asks for one change for each field. -/
theorem ofDocument?_set (empty : AttributeValue) (fields : Fields) :
    ofDocument? empty (.object [("$set", .object fields)]) = some (fields.map ofField) := by
  rw [ofDocument?, fields_set, List.mapM_map]
  apply mapM_eq_some_map
  intro field _
  rfl

end Change

/-! ### Requests -/

theorem composed_compileGuard (b : UpdateBuilder) : b.compileGuard.Composed := by
  unfold UpdateBuilder.compileGuard
  cases b.mode.guard with
  | none => exact Naming.composed_pure []
  | some test => exact composed_guardAttributes test _

/-- The update of a request is compiled from its document; what its tokens stand for is part of
what the request says. -/
theorem UpdateBuilder.update_of_build {b : UpdateBuilder} {request : UpdateRequest}
    (built : b.build = .ok request) :
    ∃ key update p, keyOfDocument b.key = .ok key ∧
      (compileUpdate b.update).runFrom {} = (.ok update, p) ∧
      p ≤ { names := request.names, values := request.values } ∧
      request.update = if update.isEmpty then none else some update.text := by
  obtain ⟨key, update, filter, q, r, keyed, updateRan, filterRan, rfl⟩ := build_ok built
  -- Guards and filters are compiled after the update and leave its placeholders alone.
  have guards : q ≤ (b.compileGuard q).2 := ((composed_compileGuard b).registers q).le
  obtain ⟨conditions, threaded, -⟩ := compileFiltersAfter_ok_iff.mp filterRan
  have filters : (b.compileGuard q).2 ≤ r := threaded.le composed_compileCondition
  exact ⟨key, update, q, keyed, updateRan, le_trans guards filters, rfl⟩

/-! ### Fields -/

/-- The fields that are not named like one of these attributes. -/
def otherNames (keys : List String) (fields : Fields) : Fields :=
  fields.filter fun field => field.1 ∉ keys

/-- The fields that are not on one of these attributes. -/
def otherAttributes (keys : List String) (fields : Fields) : Fields :=
  fields.filter fun field => attributeOf field.1 ∉ keys

section Fields

variable {keys : List String} {fields : Fields}

theorem mem_otherNames_iff {field : String × Document} :
    field ∈ otherNames keys fields ↔ field ∈ fields ∧ field.1 ∉ keys := by
  rw [otherNames, List.mem_filter, decide_eq_true_iff]

theorem mem_otherAttributes_iff {field : String × Document} :
    field ∈ otherAttributes keys fields ↔ field ∈ fields ∧ attributeOf field.1 ∉ keys := by
  rw [otherAttributes, List.mem_filter, decide_eq_true_iff]

/-- No change is on a key attribute just if the fields on one are all named like one. -/
theorem untouched_iff :
    (∀ change ∈ (otherNames keys fields).map Change.ofField, ∀ name ∈ change.attribute?,
        name ∉ keys) ↔
      ∀ field ∈ fields, attributeOf field.1 ∈ keys → field.1 ∈ keys := by
  simp only [List.forall_mem_map, Change.attribute?_ofField, Option.mem_some_iff, forall_eq',
    mem_otherNames_iff]
  constructor
  · intro untouched field given onKey
    by_contra other
    exact untouched field ⟨given, other⟩ onKey
  · rintro named field ⟨given, other⟩ onKey
    exact other (named field given onKey)

/-- The fields that are on no key attribute are all set just if none is named like one. -/
theorem sublist_iff :
    ((otherAttributes keys fields).map Change.ofField).Sublist
        ((otherNames keys fields).map Change.ofField) ↔
      ∀ field ∈ fields, field.1 ∈ keys → attributeOf field.1 ∈ keys := by
  constructor
  · intro sublist field given named
    by_contra other
    have isSet := List.mem_map_of_mem (f := Change.ofField)
      (mem_otherAttributes_iff.mpr ⟨given, other⟩)
    obtain ⟨kept, member, same⟩ := List.mem_map.mp (sublist.subset isSet)
    -- Changes of one path are made for fields of one name.
    have samePath := congrArg Change.path same
    rw [Change.path_ofField, Change.path_ofField] at samePath
    exact (mem_otherNames_iff.mp member).2 (Path.ofText_injective samePath ▸ named)
  · intro onKey
    have among : otherAttributes keys fields =
        (otherNames keys fields).filter fun field => attributeOf field.1 ∉ keys := by
      rw [otherNames, List.filter_filter]
      refine List.filter_congr fun field given => ?_
      have named := onKey field given
      by_cases other : attributeOf field.1 ∈ keys
      · simp [other]
      · simp [other, mt named other]
    rw [among]
    exact List.filter_sublist.map _

end Fields

/-! ### Inserts -/

section Inserts

variable {t : Table} {key data : Document} {request : UpdateRequest}

theorem field?_isNone_iff {fields : Fields} {name : String} :
    (Document.field? fields name).isNone = true ↔ name ∉ fields.map Prod.fst := by
  rw [Document.field?, Option.isNone_map, Option.isNone_iff_eq_none, List.find?_eq_none,
    List.mem_map, not_exists]
  simp only [decide_eq_true_eq, not_and]

theorem withoutKey_object (keyFields fields : Fields) :
    withoutKey (.object keyFields) (.object fields) =
      .object (otherNames (keyFields.map Prod.fst) fields) := by
  rw [withoutKey, otherNames]
  congr 2
  funext field
  rw [Bool.eq_iff_iff, field?_isNone_iff, decide_eq_true_iff]

/-- An insert that is built has documents for its key and its data, and sets what is left of the
data. -/
theorem update_of_insert (built : (t.insert key data).build = .ok request) :
    ∃ fields, data = .object fields ∧ (t.insert key data).update =
      .object [("$set", .object (otherNames (t.insert key data).keyAttributes fields))] := by
  obtain ⟨item, update, p, keyed, ran, -, -⟩ := UpdateBuilder.update_of_build built
  cases key with
  | object keyFields =>
    cases data with
    | object fields =>
      refine ⟨fields, rfl, ?_⟩
      rw [Table.insert, withoutKey_object]
      rfl
    | _ => cases ran
  | _ => cases keyed

end Inserts

/-- An insert sets the fields of its data that are not named like a key attribute, in their order,
and does nothing else. None of these changes is on a key attribute just if every field on a key
attribute is named like one, and every field on another attribute is among them just if no such
field is named like a key attribute. -/
theorem insert_sets_other_names {t : Table} {key data : Document} {request : UpdateRequest}
    (built : (t.insert key data).build = .ok request) :
    ∃ (keys : List String) (fields : Fields) (update : Update)
        (changes : List (Change AttributeValue)),
      (t.insert key data).keyAttributes = keys ∧ data = .object fields ∧
      changes = (otherNames keys fields).map Change.ofField ∧
      request.update = (if update.isEmpty then none else some update.text) ∧
      (update.map Action.change).mapM
        (Change.resolve? { names := request.names, values := request.values }) = some changes ∧
      ((∀ field ∈ otherNames keys fields, WellFormedPath field.1) →
        ∀ text ∈ request.update, ∃ sections, readUpdate text = some sections ∧
          Change.resolveSections? { names := request.names, values := request.values } sections =
            some (Change.sections changes)) ∧
      ((∀ change ∈ changes, ∀ name ∈ change.attribute?, name ∉ keys) ↔
        ∀ field ∈ fields, attributeOf field.1 ∈ keys → field.1 ∈ keys) ∧
      (((otherAttributes keys fields).map Change.ofField).Sublist changes ↔
        ∀ field ∈ fields, field.1 ∈ keys → attributeOf field.1 ∈ keys) := by
  obtain ⟨fields, rfl, document⟩ := update_of_insert built
  obtain ⟨item, update, p, keyed, ran, later, written⟩ := UpdateBuilder.update_of_build built
  obtain ⟨changes, asked, resolved⟩ := compileUpdate_changes ran later
  rw [document, Change.ofDocument?_set, Option.some.injEq] at asked
  subst asked
  refine ⟨_, fields, update, _, rfl, rfl, rfl, written, resolved, ?_, untouched_iff, sublist_iff⟩
  intro wellFormed text isText
  have setsWellFormed : UpdateField.WellFormed (t.insert key (.object fields)).update := by
    rw [document, UpdateField.WellFormed, Change.fields_set, List.forall_mem_map]
    exact wellFormed
  rw [written, Option.mem_def, Option.ite_none_left_eq_some, Option.some.injEq] at isText
  obtain ⟨-, rfl⟩ := isText
  exact ⟨_, readUpdate_text (compileUpdate_spelled setsWellFormed ran),
    Change.resolveSections?_sections resolved⟩

/-- A key with one attribute. -/
def idKey : Document := .object [("id", .string "x")]

/-- The key once more, and two other fields. -/
def idAndName : Fields :=
  [("id", .string "x"), ("name", .string "foo"), ("age", .null)]

/-- An insert of them. -/
def idAndNameInsert : UpdateBuilder :=
  (Table.mk "t").insert idKey (.object idAndName)

/-- Here every field on the key is named like it, so the key is not set and the rest is. -/
theorem idAndNameInsert_sets_other_names :
    ∃ (request : UpdateRequest) (update : Update) (changes : List (Change AttributeValue)),
      idAndNameInsert.build = .ok request ∧
      request.update = some "SET #k_name=:v_name, #k_age=:v_age" ∧
      (update.map Action.change).mapM
        (Change.resolve? { names := request.names, values := request.values }) = some changes ∧
      (∀ change ∈ changes, ∀ name ∈ change.attribute?, name ∉ ["id"]) ∧
      ((otherAttributes ["id"] idAndName).map Change.ofField).Sublist changes := by
  have succeeds : idAndNameInsert.build.isOk = true := by decide +kernel
  have written : idAndNameInsert.build.toOption.bind UpdateRequest.update =
      some "SET #k_name=:v_name, #k_age=:v_age" := by decide +kernel
  obtain ⟨request, built⟩ := exists_ok_of_isOk succeeds
  rw [built] at written
  obtain ⟨keys, fields, update, changes, isKey, isData, -, -, resolved, -, untouched, allSet⟩ :=
    insert_sets_other_names built
  obtain rfl : ["id"] = keys := isKey
  obtain rfl : idAndName = fields := Document.object.inj isData
  exact ⟨request, update, changes, built, written, resolved, untouched.mpr (by decide +kernel),
    allSet.mpr (by decide +kernel)⟩

/-- An insert of a field whose path goes on below the key attribute. -/
def belowKeyInsert : UpdateBuilder :=
  (Table.mk "t").insert idKey (.object [("id.x", .bool true)])

/-- The field is not left out, and its change is on the key attribute. -/
theorem belowKeyInsert_sets_the_key : belowKeyInsert.keyAttributes = ["id"] ∧
    ∃ request, belowKeyInsert.build = .ok request ∧
      request.update = some "SET #k_id.#k_x=:v_id_x" ∧
      readUpdate "SET #k_id.#k_x=:v_id_x" =
        some [(.set, [.assign [⟨"#k_id", ""⟩, ⟨"#k_x", ""⟩] (.value ":v_id_x")])] ∧
      request.names.get? "#k_id" = some "id" := by
  have succeeds : belowKeyInsert.build.isOk = true := by decide +kernel
  have written : belowKeyInsert.build.toOption.bind UpdateRequest.update =
      some "SET #k_id.#k_x=:v_id_x" := by decide +kernel
  have named : (belowKeyInsert.build.toOption.bind fun request => request.names.get? "#k_id") =
      some "id" := by decide +kernel
  obtain ⟨request, built⟩ := exists_ok_of_isOk succeeds
  rw [built] at written named
  exact ⟨rfl, request, built, written, by decide +kernel, named⟩

end DocQuery
