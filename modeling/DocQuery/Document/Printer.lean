import DocQuery.Document

/-!
# DocQuery.Document.Printer

The compact JSON text of a document: no spaces, fields in their own order.
-/

namespace DocQuery

/-- A code below 256 as two hexadecimal digits. -/
def hexByte (code : Nat) : List Char :=
  [Nat.digitChar (code / 16), Nat.digitChar (code % 16)]

/-- A character inside a quoted text. Quote, backslash and control characters are escaped, all
others stand for themselves. -/
def escapeChar (c : Char) : List Char :=
  match c with
  | '"' => ['\\', '"']
  | '\\' => ['\\', '\\']
  | '\n' => ['\\', 'n']
  | '\r' => ['\\', 'r']
  | '\t' => ['\\', 't']
  | '\x08' => ['\\', 'b']
  | '\x0c' => ['\\', 'f']
  | c => if c.toNat < 32 then '\\' :: 'u' :: '0' :: '0' :: hexByte c.toNat else [c]

/-- A text in quotes. -/
def quoted (text : String) : String :=
  String.ofList ('"' :: text.toList.flatMap escapeChar ++ ['"'])

namespace Document

mutual

/-- The JSON text of a document. -/
def text : Document → String
  | .null => "null"
  | .bool value => if value then "true" else "false"
  | .number value => value.text
  | .string value => quoted value
  | .array items => "[" ++ ",".intercalate (itemTexts items) ++ "]"
  | .object fields => "\x7b" ++ ",".intercalate (fieldTexts fields) ++ "\x7d"

def itemTexts : List Document → List String
  | [] => []
  | item :: rest => item.text :: itemTexts rest

def fieldTexts : Fields → List String
  | [] => []
  | (name, value) :: rest => (quoted name ++ ":" ++ value.text) :: fieldTexts rest

end

/-- A text stands for itself, any other document for its JSON text. -/
def toText : Document → String
  | .string value => value
  | other => other.text

end Document

end DocQuery
