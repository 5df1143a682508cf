import DocQuery.AttributeValue
import DocQuery.Base64
import DocQuery.Document.Printer

/-!
# DocQuery.AttributeValue.Document

Documents as attribute values and back.

Every document has an attribute value. A value has a document only if each of its numbers can
be read without change; the fields of the document are in ascending order at every depth.
-/

namespace DocQuery

namespace AttributeValue

mutual

/-- The value of a document. Arrays become lists, never sets. -/
def ofDocument : Document → AttributeValue
  | .null => .null true
  | .bool value => .bool value
  | .number value => .number value.text
  | .string value => .string value
  | .array items => .list (ofItems items)
  | .object fields => .map (ofFields fields)

def ofItems : List Document → List AttributeValue
  | [] => []
  | item :: rest => ofDocument item :: ofItems rest

/-- The first of several fields with one name counts. -/
def ofFields : Fields → KeyMap AttributeValue
  | [] => .nil
  | (name, value) :: rest => (ofFields rest).insert name (ofDocument value)

end

mutual

/-- The document of a value, if its numbers can be read. Sets become arrays, bytes their
base64 text. -/
def toDocument? : AttributeValue → Option Document
  | .string text => some (.string text)
  | .number text => (Number.ofText? text).map .number
  | .binary bytes => some (.string (Base64.text bytes))
  | .stringSet members => some (.array (members.map .string))
  | .numberSet members =>
    (members.mapM Number.ofText?).map fun numbers => .array (numbers.map .number)
  | .binarySet members => some (.array (members.map fun bytes => .string (Base64.text bytes)))
  | .bool value => some (.bool value)
  | .null _ => some .null
  | .list items => (toItems? items).map .array
  | .map entries => (toFields? entries).map .object

def toItems? : List AttributeValue → Option (List Document)
  | [] => some []
  | value :: rest => do
    let item ← toDocument? value
    let items ← toItems? rest
    return item :: items

def toFields? {bound : Option String} :
    Ascending AttributeValue bound → Option Fields
  | .nil => some []
  | .cons name _ value rest => do
    let field ← toDocument? value
    let fields ← toFields? rest
    return (name, field) :: fields

end

/-- A value for reading: its type and its document, or a question mark in place of one. -/
def text (v : AttributeValue) : String :=
  match v.toDocument? with
  | some document => v.typeName ++ "(" ++ document.text ++ ")"
  | none => v.typeName ++ "(?)"

end AttributeValue

namespace Item

/-- The item of an object. -/
def ofDocument? : Document → Option Item
  | .object fields => some (AttributeValue.ofFields fields)
  | _ => none

/-- The object of an item, if all its numbers can be read. -/
def toDocument? (item : Item) : Option Document :=
  (AttributeValue.toFields? item).map .object

end Item

end DocQuery
