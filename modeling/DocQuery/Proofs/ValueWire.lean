import DocQuery.Proofs.Base64
import DocQuery.Proofs.FieldOrder

/-!
# DocQuery.Proofs.ValueWire

Attribute values and their documents on the wire are one to one.

`IsWire` describes the documents that stand for values, without reading them: an object whose only
field is named after a type and holds what values of this type are written as.

## Main results

`AttributeValue.decode?_encode`: every value is read back from what it is written as.
`AttributeValue.decode?_eq_some_iff_isWire`: what can be read is what is described.
`AttributeValue.encode_of_decode?`: what was read is written as it was, with sorted fields.
-/

namespace DocQuery

/-! ### Documents on the wire -/

/-- A document that stands for an attribute value. -/
inductive IsWire : Document → Prop where
  | string (text : String) : IsWire (.object [("S", .string text)])
  | number (text : String) : IsWire (.object [("N", .string text)])
  | binary {text : String} (canonical : Base64.IsCanonical text.toList) :
    IsWire (.object [("B", .string text)])
  | stringSet (texts : List String) : IsWire (.object [("SS", .array (texts.map .string))])
  | numberSet (texts : List String) : IsWire (.object [("NS", .array (texts.map .string))])
  | binarySet {texts : List String} (canonical : ∀ text ∈ texts, Base64.IsCanonical text.toList) :
    IsWire (.object [("BS", .array (texts.map .string))])
  | bool (value : Bool) : IsWire (.object [("BOOL", .bool value)])
  | null (marker : Bool) : IsWire (.object [("NULL", .bool marker)])
  | list {items : List Document} (each : ∀ item ∈ items, IsWire item) :
    IsWire (.object [("L", .array items)])
  | map {fields : Fields} (each : ∀ field ∈ fields, IsWire field.2) :
    IsWire (.object [("M", .object fields)])

/-! ### Texts -/

namespace Base64

theorem ofText?_text (bytes : List UInt8) : ofText? (text bytes) = some bytes := by
  rw [ofText?, text, String.toList_ofList, decode?_encode]

theorem text_of_ofText? {written : String} {bytes : List UInt8}
    (read : ofText? written = some bytes) : text bytes = written := by
  rw [text, encode_of_decode? read, String.ofList_toList]

theorem ofText?_eq_some_iff_isCanonical (text : String) :
    (∃ bytes, ofText? text = some bytes) ↔ IsCanonical text.toList :=
  decode?_eq_some_iff_isCanonical text.toList

theorem mapM_ofText?_text (members : List (List UInt8)) :
    (members.map text).mapM ofText? = some members :=
  mapM_map_eq_some fun bytes _ => ofText?_text bytes

end Base64

/-- What can be read as texts is an array of texts. -/
theorem textsOf?_eq_some_iff {items : List Document} {texts : List String} :
    textsOf? items = some texts ↔ items = texts.map .string := by
  refine mapM_eq_some_iff_eq_map fun item text => ?_
  cases item <;> simp [decode?, Wire.decode?]

namespace AttributeValue

/-! ### Reading what was written -/

theorem decode?_encode (value : AttributeValue) : decode? value.encode = some value := by
  have texts (members : List String) : textsOf? (members.map .string) = some members :=
    textsOf?_eq_some_iff.mpr rfl
  induction value using induction_nested with
  | string | number | bool | null => rfl
  | binary bytes => simp [encode, decode?, ofText?, Base64.ofText?_text]
  | stringSet members | numberSet members =>
    simp [encode, decode?, ofTexts?, texts]
  | binarySet members =>
    have read : textsOf? (members.map fun bytes => .string (Base64.text bytes)) =
        some (members.map Base64.text) := by
      rw [textsOf?_eq_some_iff, List.map_map]
      rfl
    rw [encode, decode?, if_neg (by decide), read, Option.bind_some, ofTexts?, if_neg (by decide),
      if_neg (by decide), if_pos rfl, Base64.mapM_ofText?_text]
    rfl
  | list items ih =>
    have each : (items.map encode).mapM decode? = some items := mapM_map_eq_some ih
    rw [encode, decode?, if_pos rfl, encodeItems_eq, decodeItems?_eq, each]
    rfl
  | map entries ih =>
    have each : (entries.toList.map fun entry => (entry.1, entry.2.encode)).mapM
        (fun field => (decode? field.2).map (field.1, ·)) = some entries.toList := by
      apply mapM_map_eq_some
      intro entry member
      rw [ih entry member]
      rfl
    rw [encode, decode?, if_pos rfl, encodeEntries_eq, decodeEntries?_eq, each, Option.map_some,
      Ascending.ofList_toList]
    rfl

/-! ### Writing what was read -/

/-- What a document looks like that was read as a value. -/
def IsReadFrom (document : Document) : AttributeValue → Prop
  | .string text => document = .object [("S", .string text)]
  | .number text => document = .object [("N", .string text)]
  | .binary bytes =>
    ∃ text, Base64.ofText? text = some bytes ∧ document = .object [("B", .string text)]
  | .stringSet texts => document = .object [("SS", .array (texts.map .string))]
  | .numberSet texts => document = .object [("NS", .array (texts.map .string))]
  | .binarySet members =>
    ∃ texts, List.Forall₂ (fun text bytes => Base64.ofText? text = some bytes) texts members ∧
      document = .object [("BS", .array (texts.map .string))]
  | .bool value => document = .object [("BOOL", .bool value)]
  | .null marker => document = .object [("NULL", .bool marker)]
  | .list values =>
    ∃ items, List.Forall₂ (fun item value => decode? item = some value) items values ∧
      document = .object [("L", .array items)]
  | .map entries =>
    ∃ fields read, List.Forall₂
        (fun field entry => (decode? field.2).map (field.1, ·) = some entry) fields read ∧
      .ofList read = entries ∧ document = .object [("M", .object fields)]

section Reading

variable {document : Document} {value : AttributeValue} {type : String}

theorem isReadFrom_text {text : String} (read : ofText? type text = some value) :
    IsReadFrom (.object [(type, .string text)]) value := by
  unfold ofText? at read
  split at read
  next isText =>
    cases read
    rw [isText]
    rfl
  next =>
    split at read
    next isNumber =>
      cases read
      rw [isNumber]
      rfl
    next =>
      split at read
      next isBinary =>
        obtain ⟨bytes, decoded, rfl⟩ := Option.map_eq_some_iff.mp read
        rw [isBinary]
        exact ⟨text, decoded, rfl⟩
      next => cases read

theorem isReadFrom_texts {texts : List String} (read : ofTexts? type texts = some value) :
    IsReadFrom (.object [(type, .array (texts.map .string))]) value := by
  unfold ofTexts? at read
  split at read
  next isTexts =>
    cases read
    rw [isTexts]
    rfl
  next =>
    split at read
    next isNumbers =>
      cases read
      rw [isNumbers]
      rfl
    next =>
      split at read
      next isBinaries =>
        obtain ⟨members, decoded, rfl⟩ := Option.map_eq_some_iff.mp read
        rw [isBinaries]
        exact ⟨texts, mapM_eq_some_iff.mp decoded, rfl⟩
      next => cases read

theorem isReadFrom_of_decode? (read : decode? document = some value) :
    IsReadFrom document value := by
  unfold decode? at read
  split at read
  next type text => exact isReadFrom_text read
  next type flag =>
    split at read
    next isBool =>
      cases read
      rw [isBool]
      rfl
    next =>
      split at read
      next isNull =>
        cases read
        rw [isNull]
        rfl
      next => cases read
  next type items =>
    split at read
    next isList =>
      rw [decodeItems?_eq] at read
      obtain ⟨values, decoded, rfl⟩ := Option.map_eq_some_iff.mp read
      rw [isList]
      exact ⟨items, mapM_eq_some_iff.mp decoded, rfl⟩
    next =>
      obtain ⟨texts, listed, made⟩ := Option.bind_eq_some_iff.mp read
      obtain rfl := textsOf?_eq_some_iff.mp listed
      exact isReadFrom_texts made
  next type fields =>
    split at read
    next isMap =>
      rw [decodeEntries?_eq, Option.map_map] at read
      obtain ⟨entries, decoded, rfl⟩ := Option.map_eq_some_iff.mp read
      rw [isMap]
      exact ⟨fields, entries, mapM_eq_some_iff.mp decoded, rfl, rfl⟩
    next => cases read
  next => cases read

/-- A document without duplicate names that was read is one that is described, and is written as it
was but for the order of the fields. -/
theorem encode_of_decode? (distinct : document.Distinct) (read : decode? document = some value) :
    IsWire document ∧ value.encode = document.sorted := by
  induction value using induction_nested generalizing document with
  | string text =>
    obtain rfl := isReadFrom_of_decode? read
    exact ⟨.string text, rfl⟩
  | number text =>
    obtain rfl := isReadFrom_of_decode? read
    exact ⟨.number text, rfl⟩
  | binary bytes =>
    obtain ⟨text, decoded, rfl⟩ := isReadFrom_of_decode? read
    refine ⟨.binary ((Base64.ofText?_eq_some_iff_isCanonical text).mp ⟨bytes, decoded⟩), ?_⟩
    rw [encode, Base64.text_of_ofText? decoded]
    rfl
  | stringSet texts =>
    obtain rfl := isReadFrom_of_decode? read
    rw [Document.sorted_sole, Document.sorted_texts]
    exact ⟨.stringSet texts, rfl⟩
  | numberSet texts =>
    obtain rfl := isReadFrom_of_decode? read
    rw [Document.sorted_sole, Document.sorted_texts]
    exact ⟨.numberSet texts, rfl⟩
  | binarySet members =>
    obtain ⟨texts, decoded, rfl⟩ := isReadFrom_of_decode? read
    have each := decoded.imp fun text bytes decoded =>
      (⟨(Base64.ofText?_eq_some_iff_isCanonical text).mp ⟨bytes, decoded⟩,
        congrArg Document.string (Base64.text_of_ofText? decoded).symm⟩ :
        Base64.IsCanonical text.toList ∧ Document.string text = .string (Base64.text bytes))
    obtain ⟨canonical, same⟩ := (List.forall₂_and_left _ _).mp each
    refine ⟨.binarySet canonical, ?_⟩
    rw [encode, Document.sorted_sole, Document.sorted_texts, map_eq_map_of_forall₂ same]
  | bool flag =>
    obtain rfl := isReadFrom_of_decode? read
    exact ⟨.bool flag, rfl⟩
  | null marker =>
    obtain rfl := isReadFrom_of_decode? read
    exact ⟨.null marker, rfl⟩
  | list values ih =>
    obtain ⟨items, decoded, rfl⟩ := isReadFrom_of_decode? read
    rw [Document.distinct_sole_iff, Document.distinct_array_iff] at distinct
    have each := forall₂_imp_mem decoded fun item member value valueMember =>
      ih value valueMember (distinct item member)
    obtain ⟨described, same⟩ := (List.forall₂_and_left _ _).mp each
    refine ⟨.list described, ?_⟩
    rw [encode, encodeItems_eq, Document.sorted_sole, Document.sorted_array,
      map_eq_map_of_forall₂ (same.imp fun _ _ => Eq.symm)]
  | map entries ih =>
    obtain ⟨fields, listing, decoded, rfl, rfl⟩ := isReadFrom_of_decode? read
    rw [Document.distinct_sole_iff, Document.distinct_object_iff] at distinct
    obtain ⟨names, distinctFields⟩ := distinct
    -- The entries that were read have the names of the fields, and so none of them is lost.
    rw [map_fst_eq_of_forall₂ decoded] at names
    have listed := Ascending.toList_ofList names
    have each : List.Forall₂ (fun field entry => IsWire field.2 ∧
        (field.1, field.2.sorted) = (entry.1, entry.2.encode)) fields listing := by
      refine forall₂_imp_mem decoded fun field member entry entryMember made => ?_
      have inMap : entry ∈ (Ascending.ofList listing).toList := by
        rw [listed]
        exact mem_sortFields.mpr entryMember
      obtain ⟨value, decodedValue, rfl⟩ := Option.map_eq_some_iff.mp made
      obtain ⟨described, same⟩ := ih _ inMap (distinctFields field member) decodedValue
      exact ⟨described, by rw [same]⟩
    obtain ⟨described, same⟩ := (List.forall₂_and_left _ _).mp each
    refine ⟨.map described, ?_⟩
    rw [encode, encodeEntries_eq, Document.sorted_sole, Document.sorted_object,
      map_eq_map_of_forall₂ same, listed, sortFields_map]

end Reading

/-! ### What can be read -/

theorem exists_decode?_of_isWire {document : Document} (described : IsWire document) :
    ∃ value, decode? document = some value := by
  induction described with
  | string text => exact ⟨.string text, rfl⟩
  | number text => exact ⟨.number text, rfl⟩
  | @binary text canonical =>
    obtain ⟨bytes, decoded⟩ := (Base64.ofText?_eq_some_iff_isCanonical text).mpr canonical
    refine ⟨.binary bytes, ?_⟩
    rw [decode?, ofText?, if_neg (by decide), if_neg (by decide), if_pos rfl, decoded]
    rfl
  | stringSet texts =>
    refine ⟨.stringSet texts, ?_⟩
    rw [decode?, if_neg (by decide), textsOf?_eq_some_iff.mpr rfl]
    rfl
  | numberSet texts =>
    refine ⟨.numberSet texts, ?_⟩
    rw [decode?, if_neg (by decide), textsOf?_eq_some_iff.mpr rfl]
    rfl
  | @binarySet texts canonical =>
    have each : ∀ text ∈ texts, ∃ bytes, Base64.ofText? text = some bytes := fun text member =>
      (Base64.ofText?_eq_some_iff_isCanonical text).mpr (canonical text member)
    obtain ⟨members, decoded⟩ := exists_mapM_eq_some_iff.mpr each
    refine ⟨.binarySet members, ?_⟩
    rw [decode?, if_neg (by decide), textsOf?_eq_some_iff.mpr rfl, Option.bind_some, ofTexts?,
      if_neg (by decide), if_neg (by decide), if_pos rfl, decoded]
    rfl
  | bool flag => exact ⟨.bool flag, rfl⟩
  | null marker => exact ⟨.null marker, rfl⟩
  | list _ ih =>
    obtain ⟨values, decoded⟩ := exists_mapM_eq_some_iff.mpr ih
    refine ⟨.list values, ?_⟩
    rw [decode?, if_pos rfl, decodeItems?_eq, decoded]
    rfl
  | @map fields _ ih =>
    have each : ∀ field ∈ fields, ∃ entry, (decode? field.2).map (field.1, ·) = some entry := by
      intro field member
      obtain ⟨value, decoded⟩ := ih field member
      exact ⟨(field.1, value), by rw [decoded]; rfl⟩
    obtain ⟨entries, decoded⟩ := exists_mapM_eq_some_iff.mpr each
    refine ⟨.map (.ofList entries), ?_⟩
    rw [decode?, if_pos rfl, decodeEntries?_eq, decoded]
    rfl

/-- Values and documents on the wire are one to one. Every value is read back from what it is
written as. Of the documents without duplicate names, those that can be read are those that are
described, and what is read from one is written as it was, up to the order of fields. -/
theorem wire_is_bijective :
    (∀ value : AttributeValue, decode? value.encode = some value) ∧
    ∀ document : Document, document.Distinct →
      ((∃ value, decode? document = some value) ↔ IsWire document) ∧
      ∀ value, decode? document = some value → value.encode = document.sorted := by
  refine ⟨decode?_encode, fun document distinct => ⟨⟨?_, exists_decode?_of_isWire⟩, ?_⟩⟩
  · rintro ⟨value, read⟩
    exact (encode_of_decode? distinct read).1
  · exact fun value read => (encode_of_decode? distinct read).2

/-- Fields out of order at two depths, and bytes of all lengths. -/
def nestedWire : Document :=
  .object [("M", .object [
    ("b", .object [("BS", .array (["", "AA==", "AAA=", "aGk+"].map .string))]),
    ("a", .object [("L", .array [
      .object [("M", .object [("d", .object [("NULL", .bool false)]),
        ("c", .object [("N", .string "not a number")])])]])])])]

theorem nestedWire_is_bijective :
    ∃ value, decode? nestedWire = some value ∧ value.encode = nestedWire.sorted ∧
      decode? value.encode = some value := by
  obtain ⟨every, documents⟩ := wire_is_bijective
  have distinct : nestedWire.Distinct := by
    simp [nestedWire, Document.Distinct, Document.DistinctItems, Document.DistinctFields]
  have readable : (decode? nestedWire).isSome = true := by decide +kernel
  obtain ⟨value, read⟩ := Option.isSome_iff_exists.mp readable
  exact ⟨value, read, (documents nestedWire distinct).2 value read, every value⟩

end AttributeValue

end DocQuery
