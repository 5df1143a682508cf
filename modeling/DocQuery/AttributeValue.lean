import DocQuery.KeyMap

/-!
# DocQuery.AttributeValue

The typed values of a store. Numbers are kept as texts, so none is ever rounded; maps ignore
the order of their entries, sets and lists do not.
-/

namespace DocQuery

inductive AttributeValue where
  | string (text : String)
  | number (text : String)
  | binary (bytes : List UInt8)
  | stringSet (members : List String)
  | numberSet (members : List String)
  | binarySet (members : List (List UInt8))
  | bool (value : Bool)
  | null (marker : Bool)
  | list (items : List AttributeValue)
  | map (entries : Ascending AttributeValue none)
deriving Repr, Inhabited

/-- The attributes of an item, or of the key of an item. -/
abbrev Item := KeyMap AttributeValue

namespace AttributeValue

def emptyList : AttributeValue := .list []

/-- The name of the type in requests and responses. -/
def typeName : AttributeValue → String
  | .string _ => "S"
  | .number _ => "N"
  | .binary _ => "B"
  | .stringSet _ => "SS"
  | .numberSet _ => "NS"
  | .binarySet _ => "BS"
  | .bool _ => "BOOL"
  | .null _ => "NULL"
  | .list _ => "L"
  | .map _ => "M"

/-! ### Equality -/

mutual

/-- Whether two values are equal, decided on their structure. -/
def same : AttributeValue → AttributeValue → Bool
  | .string s, .string t => s = t
  | .number s, .number t => s = t
  | .binary s, .binary t => s = t
  | .stringSet s, .stringSet t => s = t
  | .numberSet s, .numberSet t => s = t
  | .binarySet s, .binarySet t => s = t
  | .bool s, .bool t => s = t
  | .null s, .null t => s = t
  | .list s, .list t => sameItems s t
  | .map s, .map t => sameEntries s t
  | _, _ => false

def sameItems : List AttributeValue → List AttributeValue → Bool
  | [], [] => true
  | v :: s, w :: t => same v w && sameItems s t
  | _, _ => false

def sameEntries {bound : Option String} :
    Ascending AttributeValue bound → Ascending AttributeValue bound → Bool
  | .nil, .nil => true
  | .cons k _ v s, .cons l _ w t =>
    if h : k = l then same v w && sameEntries s (h ▸ t) else false
  | _, _ => false

end

mutual

theorem same_iff : ∀ v w : AttributeValue, same v w = true ↔ v = w
  | .list s, w => by cases w <;> simp [same, sameItems_iff s]
  | .map s, w => by cases w <;> simp [same, sameEntries_iff s]
  | .string _, w | .number _, w | .binary _, w | .stringSet _, w | .numberSet _, w
  | .binarySet _, w | .bool _, w | .null _, w => by cases w <;> simp [same]

theorem sameItems_iff : ∀ s t : List AttributeValue, sameItems s t = true ↔ s = t
  | [], t => by cases t <;> simp [sameItems]
  | v :: s, t => by cases t <;> simp [sameItems, same_iff v, sameItems_iff s]

theorem sameEntries_iff : ∀ {bound : Option String} (s t : Ascending AttributeValue bound),
    sameEntries s t = true ↔ s = t
  | _, .nil, t => by cases t <;> simp [sameEntries]
  | _, .cons k _ v s, t => by
    cases t with
    | nil => simp [sameEntries]
    | cons l _ w t =>
      by_cases h : k = l
      · subst h
        simp [sameEntries, same_iff v, sameEntries_iff s]
      · simp [sameEntries, h]

end

instance : DecidableEq AttributeValue := fun v w => decidable_of_iff _ (same_iff v w)

end AttributeValue

end DocQuery
