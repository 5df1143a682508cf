import DocQuery.Document
import DocQuery.KeyMap

/-!
# DocQuery.Wire

Values as JSON documents on the wire.

A record is an object. Fields it does not know are passed over; an optional field may be
missing or null; a field with a default may be missing but not null. An array is read as a record
too, with its items as the fields in their order.
-/

namespace DocQuery

/-- A type whose values are sent as documents. -/
class Wire (α : Type) where
  encode : α → Document
  decode? : Document → Option α

export Wire (encode)

/-- The value a document stands for on the wire. -/
def decode? {α : Type} [Wire α] (document : Document) : Option α :=
  Wire.decode? document

namespace Fields

variable {α : Type} [Wire α]

/-- A field that must be there. -/
def required (fields : Fields) (name : String) : Option α :=
  (Document.field? fields name).bind decode?

/-- A field that may be missing or null. -/
def optional (fields : Fields) (name : String) : Option (Option α) :=
  match Document.field? fields name with
  | none | some .null => some none
  | some document => (decode? document).map some

/-- A field that may be missing, and then has the value `default`. -/
def defaulted (fields : Fields) (name : String) (default : α) : Option α :=
  match Document.field? fields name with
  | none => some default
  | some document => decode? document

/-- A field that is always written. -/
def field (name : String) (value : α) : Fields :=
  [(name, encode value)]

/-- A field that is written only if it has a value. -/
def whenPresent (name : String) : Option α → Fields
  | none => []
  | some value => field name value

/-- A field that is left out while it is empty. -/
def unlessEmpty (empty : Bool) (name : String) (value : α) : Fields :=
  if empty then [] else field name value

end Fields

/-! ### Records -/

/-- What is made of a field that is not there. -/
inductive Presence where
  /-- The record is refused. -/
  | required
  /-- There is no value, as if there were null. -/
  | optional
  /-- The field has a value all the same. -/
  | defaulted
deriving DecidableEq, Repr

/-- The fields of a record, in the order in which the items of an array stand for them. -/
abbrev Layout := List (String × Presence)

/-- The items of an array as the fields of a record. None may be left over, and only a field with a
default may be left out. -/
def Layout.place? : Layout → List Document → Option Fields
  | [], [] => some []
  | [], _ :: _ => none
  | (name, _) :: layout, item :: items => (place? layout items).map ((name, item) :: ·)
  | (_, .defaulted) :: layout, [] => place? layout []
  | (_, .required) :: _, [] | (_, .optional) :: _, [] => none

/-- Some fields of a record, and what they are read as. -/
structure RecordReader (α : Type) where
  layout : Layout
  read : Fields → Option α

namespace RecordReader

instance : Applicative RecordReader where
  pure value := ⟨[], fun _ => some value⟩
  seq first second :=
    ⟨first.layout ++ (second ()).layout,
      fun fields => (first.read fields).bind fun f => ((second ()).read fields).map f⟩

variable {α : Type} [Wire α]

def required (name : String) : RecordReader α where
  layout := [(name, .required)]
  read fields := fields.required name

def optional (name : String) : RecordReader (Option α) where
  layout := [(name, .optional)]
  read fields := fields.optional name

def defaulted (name : String) (default : α) : RecordReader α where
  layout := [(name, .defaulted)]
  read fields := fields.defaulted name default

/-- The record that a document stands for. -/
def decode? {α : Type} (reader : RecordReader α) : Document → Option α
  | .object fields => reader.read fields
  | .array items => (reader.layout.place? items).bind reader.read
  | _ => none

end RecordReader

/-! ### Scalars -/

/-- The name of a value that is no more than its name: alone, or over null as the only key. -/
def variantName? : Document → Option String
  | .string name => some name
  | .object [(name, .null)] => some name
  | _ => none

instance : Wire String where
  encode := .string
  decode?
    | .string text => some text
    | _ => none

instance : Wire Bool where
  encode := .bool
  decode?
    | .bool value => some value
    | _ => none

theorem wholeFits_toInt (value : Int32) : WholeFits value.toInt := by
  have lower := value.le_toInt
  have upper := value.toInt_lt
  rw [WholeFits, Int64.toInt_minValue, UInt64.size]
  omega

instance : Wire Int32 where
  encode value := .number (.whole value.toInt (wholeFits_toInt value))
  decode?
    | .number (.whole value _) =>
      if Int32.minValue.toInt ≤ value ∧ value ≤ Int32.maxValue.toInt then
        some (Int32.ofInt value)
      else
        none
    | _ => none

/-- The texts of an array that holds nothing else. -/
def textsOf? (items : List Document) : Option (List String) :=
  items.mapM decode?

/-- A map of names, as an object of texts. -/
def namesOf? : Fields → Option (KeyMap String)
  | [] => some .nil
  | (name, document) :: rest => do
    let value ← decode? document
    let names ← namesOf? rest
    return names.insert name value

instance : Wire (KeyMap String) where
  encode names := .object (names.mapValues encode).toList
  decode?
    | .object fields => namesOf? fields
    | _ => none

end DocQuery
