import DocQuery.Document

/-!
# DocQuery.Document.Reader

Documents from JSON text.

Each reader takes what it needs from the front of the text and gives back the rest. The fuel of
the mutual readers is the length of the text: every step takes at least one character.
-/

namespace DocQuery

/-- The value of a hexadecimal digit of either case. -/
def hexDigit? (c : Char) : Option Nat :=
  if '0' ≤ c ∧ c ≤ '9' then some (c.toNat - '0'.toNat)
  else if 'a' ≤ c ∧ c ≤ 'f' then some (c.toNat - 'a'.toNat + 10)
  else if 'A' ≤ c ∧ c ≤ 'F' then some (c.toNat - 'A'.toNat + 10)
  else none

/-- What the next character of a quoted text is part of. -/
inductive Awaiting where
  | plain
  | escape
  | hex (left value : Nat)
deriving Repr

/-- A quoted text read so far, last character first; `high` is the first half of a pair of
`\u` escapes that waits for its second half. -/
structure Unquoting where
  done : List Char
  high : Option Nat
  awaiting : Awaiting
deriving Repr

namespace Unquoting

def start : Unquoting := ⟨[], none, .plain⟩

def push (s : Unquoting) (c : Char) : Unquoting :=
  { s with done := c :: s.done, awaiting := .plain }

/-- Take one 16-bit code: a character, or one half of a pair that denotes a character. -/
def pushCode (s : Unquoting) (code : Nat) : Option Unquoting :=
  match s.high with
  | none =>
    -- The first half of a pair waits; a second half cannot come first.
    if 0xD800 ≤ code ∧ code < 0xDC00 then some { s with high := some code, awaiting := .plain }
    else if 0xDC00 ≤ code ∧ code < 0xE000 then none
    else some (s.push (Char.ofNat code))
  | some high =>
    if 0xDC00 ≤ code ∧ code < 0xE000 then
      some (push { s with high := none }
        (Char.ofNat (0x10000 + (high - 0xD800) * 0x400 + (code - 0xDC00))))
    else none

/-- The character that a one-letter escape stands for. -/
def escaped? : Char → Option Char
  | '"' => some '"'
  | '\\' => some '\\'
  | '/' => some '/'
  | 'b' => some '\x08'
  | 'f' => some '\x0c'
  | 'n' => some '\n'
  | 'r' => some '\r'
  | 't' => some '\t'
  | _ => none

/-- Take one character that does not end the text. -/
def step (s : Unquoting) (c : Char) : Option Unquoting :=
  match s.awaiting with
  | .plain =>
    if c = '\\' then some { s with awaiting := .escape }
    else if s.high.isSome ∨ c.toNat < 32 then none
    else some (s.push c)
  | .escape =>
    if c = 'u' then some { s with awaiting := .hex 4 0 }
    else if s.high.isSome then none
    else (escaped? c).map s.push
  | .hex left value => do
    let code := value * 16 + (← hexDigit? c)
    if left ≤ 1 then s.pushCode code else some { s with awaiting := .hex (left - 1) code }

/-- Read up to the closing quote. -/
def finish (s : Unquoting) : List Char → Option (String × List Char)
  | [] => none
  | c :: rest =>
    match c, s.awaiting, s.high with
    | '"', .plain, none => some (String.ofList s.done.reverse, rest)
    | c, _, _ => (s.step c).bind (finish · rest)

end Unquoting

def isBlank (c : Char) : Bool :=
  c = ' ' || c = '\n' || c = '\r' || c = '\t'

def isNumberChar (c : Char) : Bool :=
  c.isDigit || c = '+' || c = '-' || c = '.' || c = 'e' || c = 'E'

/-- The number a JSON number literal stands for: a whole number if it is written as one and
fits, else the nearest double. -/
def numberOfLiteral? (text : List Char) : Option Number := do
  let literal ← Literal.ofText? text
  -- No plus sign, no zero before other digits, and digits on both sides of a point.
  guard (text.head? ≠ some '+')
  guard (literal.whole ≠ [] ∧ (literal.whole = ['0'] ∨ literal.whole.head? ≠ some '0'))
  guard ('.' ∈ text → literal.fraction ≠ [])
  -- A whole zero has no sign, so a negative zero is a double.
  let asWhole := if text = ['-', '0'] then none else (integer? text).bind Number.ofInt?
  asWhole <|> (Binary64.ofLiteral? literal).map .double

namespace Document

/-- Put a field before others; a later field of the same name takes its place. -/
def consField (name : String) (value : Document) (later : Fields) : Fields :=
  match field? later name with
  | none => (name, value) :: later
  | some last => (name, last) :: later.filter (·.1 ≠ name)

mutual

def read : Nat → List Char → Option (Document × List Char)
  | 0, _ => none
  | fuel + 1, text =>
    match text.dropWhile isBlank with
    | 'n' :: 'u' :: 'l' :: 'l' :: rest => some (.null, rest)
    | 't' :: 'r' :: 'u' :: 'e' :: rest => some (.bool true, rest)
    | 'f' :: 'a' :: 'l' :: 's' :: 'e' :: rest => some (.bool false, rest)
    | '"' :: rest => (Unquoting.start.finish rest).map fun (value, rest) => (.string value, rest)
    | '[' :: rest =>
      match rest.dropWhile isBlank with
      | ']' :: rest => some (.array [], rest)
      | rest => (readItems fuel rest).map fun (items, rest) => (.array items, rest)
    | '{' :: rest =>
      match rest.dropWhile isBlank with
      | '}' :: rest => some (.object [], rest)
      | rest => (readFields fuel rest).map fun (fields, rest) => (.object fields, rest)
    | text =>
      (numberOfLiteral? (text.takeWhile isNumberChar)).map fun value =>
        (.number value, text.dropWhile isNumberChar)

/-- One or more items up to the closing bracket. -/
def readItems : Nat → List Char → Option (List Document × List Char)
  | 0, _ => none
  | fuel + 1, text => do
    let (item, rest) ← read fuel text
    match rest.dropWhile isBlank with
    | ']' :: rest => some ([item], rest)
    | ',' :: rest => (readItems fuel rest).map fun (items, rest) => (item :: items, rest)
    | _ => none

/-- One or more fields up to the closing brace. -/
def readFields : Nat → List Char → Option (Fields × List Char)
  | 0, _ => none
  | fuel + 1, text =>
    match text.dropWhile isBlank with
    | '"' :: rest => do
      let (name, rest) ← Unquoting.start.finish rest
      match rest.dropWhile isBlank with
      | ':' :: rest =>
        let (value, rest) ← read fuel rest
        match rest.dropWhile isBlank with
        | '}' :: rest => some ([(name, value)], rest)
        | ',' :: rest =>
          (readFields fuel rest).map fun (fields, rest) => (consField name value fields, rest)
        | _ => none
      | _ => none
    | _ => none

end

/-- The document a text holds, with nothing but blanks around it. -/
def ofText? (text : String) : Option Document :=
  let chars := text.toList
  match read (chars.length + 1) chars with
  | some (document, rest) => if rest.all isBlank then some document else none
  | none => none

end Document

end DocQuery
