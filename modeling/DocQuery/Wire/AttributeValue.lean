import DocQuery.AttributeValue
import DocQuery.Base64
import DocQuery.Wire

/-!
# DocQuery.Wire.AttributeValue

Attribute values on the wire: an object whose only field is named after the type.
-/

namespace DocQuery

namespace AttributeValue

mutual

def encode : AttributeValue → Document
  | .string text => .object [("S", .string text)]
  | .number text => .object [("N", .string text)]
  | .binary bytes => .object [("B", .string (Base64.text bytes))]
  | .stringSet members => .object [("SS", .array (members.map .string))]
  | .numberSet members => .object [("NS", .array (members.map .string))]
  | .binarySet members =>
    .object [("BS", .array (members.map fun bytes => .string (Base64.text bytes)))]
  | .bool value => .object [("BOOL", .bool value)]
  | .null marker => .object [("NULL", .bool marker)]
  | .list items => .object [("L", .array (encodeItems items))]
  | .map entries => .object [("M", .object (encodeEntries entries))]

def encodeItems : List AttributeValue → List Document
  | [] => []
  | value :: rest => value.encode :: encodeItems rest

def encodeEntries {bound : Option String} : Ascending AttributeValue bound → Fields
  | .nil => []
  | .cons name _ value rest => (name, value.encode) :: encodeEntries rest

end

/-- The value of a text under the name of its type. -/
def ofText? (type text : String) : Option AttributeValue :=
  if type = "S" then some (.string text)
  else if type = "N" then some (.number text)
  else if type = "B" then (Base64.ofText? text).map .binary
  else none

/-- The set of some texts under the name of its type. -/
def ofTexts? (type : String) (texts : List String) : Option AttributeValue :=
  if type = "SS" then some (.stringSet texts)
  else if type = "NS" then some (.numberSet texts)
  else if type = "BS" then (texts.mapM Base64.ofText?).map .binarySet
  else none

mutual

def decode? : Document → Option AttributeValue
  | .object [(type, .string text)] => ofText? type text
  | .object [(type, .bool value)] =>
    if type = "BOOL" then some (.bool value)
    else if type = "NULL" then some (.null value)
    else none
  | .object [(type, .array items)] =>
    if type = "L" then (decodeItems? items).map .list
    else (textsOf? items).bind (ofTexts? type)
  | .object [(type, .object fields)] =>
    if type = "M" then (decodeEntries? fields).map .map else none
  | _ => none

def decodeItems? : List Document → Option (List AttributeValue)
  | [] => some []
  | document :: rest => do
    let value ← decode? document
    let values ← decodeItems? rest
    return value :: values

/-- The first of several fields with one name counts. -/
def decodeEntries? : Fields → Option Item
  | [] => some .nil
  | (name, document) :: rest => do
    let value ← decode? document
    let entries ← decodeEntries? rest
    return entries.insert name value

end

end AttributeValue

instance : Wire AttributeValue where
  encode := AttributeValue.encode
  decode? := AttributeValue.decode?

instance : Wire Item where
  encode item := .object (AttributeValue.encodeEntries item)
  decode?
    | .object fields => AttributeValue.decodeEntries? fields
    | _ => none

instance : Wire (List Item) where
  encode items := .array (items.map encode)
  decode?
    | .array documents => documents.mapM DocQuery.decode?
    | _ => none

end DocQuery
