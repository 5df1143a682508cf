import DocQuery.Number

/-!
# DocQuery.Document

JSON documents. The fields of an object keep the order in which they were written; where
documents are compiled, that order is the order of the expressions.
-/

namespace DocQuery

inductive Document where
  | null
  | bool (value : Bool)
  | number (value : Number)
  | string (value : String)
  | array (items : List Document)
  | object (fields : List (String × Document))
deriving Repr, Inhabited

/-- The fields of an object, in the order in which they are written. -/
abbrev Fields := List (String × Document)

namespace Document

/-- The fields of an object. -/
def fields? : Document → Option Fields
  | .object fields => some fields
  | _ => none

/-- The first field with this name. -/
def field? (fields : Fields) (name : String) : Option Document :=
  (fields.find? (·.1 = name)).map Prod.snd

/-- The operand of an object that has `name` as its only field. -/
def soleField? (name : String) : Document → Option Document
  | .object [(key, value)] => if key = name then some value else none
  | _ => none

/-- Null, false, zero and the empty text count as false; everything else counts as true. -/
def isTruthy : Document → Bool
  | .null => false
  | .bool value => value
  | .number value => !value.isZero
  | .string value => value ≠ ""
  | .array _ | .object _ => true

end Document

end DocQuery
