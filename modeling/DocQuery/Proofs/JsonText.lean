import DocQuery.Document.Printer
import DocQuery.Proofs.Nesting

/-!
# DocQuery.Proofs.JsonText

JSON text, said from left to right.

Items and fields are written one after another, each behind the first with a comma in front, up to
the closing bracket. In a quoted text the characters that have a letter of their own are written as
that letter behind a backslash, the other control characters as four hexadecimal digits.

## Main result

`Document.toList_text`: the printer writes this text.
-/

namespace DocQuery

/-! ### Quoted texts -/

/-- The characters that are written as a letter behind a backslash. -/
def escapeLetters : List (Char × Char) :=
  [('"', '"'), ('\\', '\\'), ('\x08', 'b'), ('\x0c', 'f'), ('\n', 'n'), ('\r', 'r'), ('\t', 't')]

/-- A character as it is written inside quotes. -/
def writtenChar (c : Char) : List Char :=
  match escapeLetters.lookup c with
  | some letter => ['\\', letter]
  | none =>
    if c.toNat < 32 then ['\\', 'u'] ++ (Nat.toDigits 16 c.toNat).leftpad 4 '0'
    else [c]

def writtenText (text : String) : List Char :=
  ['"'] ++ text.toList.flatMap writtenChar ++ ['"']

/-- The code of a control character takes no more than two digits. -/
theorem hexByte_of_lt : ∀ code < 32,
    '0' :: '0' :: hexByte code = (Nat.toDigits 16 code).leftpad 4 '0' := by
  decide

theorem escapeChar_eq (c : Char) : escapeChar c = writtenChar c := by
  unfold escapeChar
  split
  -- Behind the seven characters that have a letter there is the rest of them.
  case h_8 notQuote notBackslash notLine notReturn notTab notBack notFeed =>
    have noLetter : escapeLetters.lookup c = none := by
      rw [List.lookup_eq_none_iff]
      simp only [escapeLetters, List.forall_mem_cons, bne_iff_ne]
      exact ⟨notQuote, notBackslash, notBack, notFeed, notLine, notReturn, notTab, nofun⟩
    rw [writtenChar, noLetter]
    split
    next isControl =>
      exact congrArg ('\\' :: 'u' :: ·) (hexByte_of_lt c.toNat isControl)
    next => rfl
  all_goals rfl

theorem toList_quoted (text : String) : (quoted text).toList = writtenText text := by
  have sameChars : escapeChar = writtenChar := funext escapeChar_eq
  simp [quoted, writtenText, sameChars]

/-! ### Documents -/

namespace Document

mutual

/-- The compact JSON text of a document. -/
def written : Document → List Char
  | .null => ['n', 'u', 'l', 'l']
  | .bool true => ['t', 'r', 'u', 'e']
  | .bool false => ['f', 'a', 'l', 's', 'e']
  | .number value => value.text.toList
  | .string value => writtenText value
  | .array items => '[' :: writtenItems items
  | .object fields => '{' :: writtenFields fields

/-- The items of an array and its closing bracket. -/
def writtenItems : List Document → List Char
  | [] => [']']
  | item :: rest => item.written ++ writtenMoreItems rest

def writtenMoreItems : List Document → List Char
  | [] => [']']
  | item :: rest => ',' :: item.written ++ writtenMoreItems rest

/-- The fields of an object and its closing bracket. -/
def writtenFields : Fields → List Char
  | [] => ['}']
  | (name, value) :: rest =>
    writtenText name ++ ':' :: value.written ++ writtenMoreFields rest

def writtenMoreFields : Fields → List Char
  | [] => ['}']
  | (name, value) :: rest =>
    ',' :: writtenText name ++ ':' :: value.written ++ writtenMoreFields rest

end

theorem itemTexts_eq (items : List Document) : itemTexts items = items.map text := by
  induction items with
  | nil => rfl
  | cons item rest ih => rw [itemTexts, ih, List.map_cons]

theorem fieldTexts_eq (fields : Fields) :
    fieldTexts fields = fields.map fun (name, value) => quoted name ++ ":" ++ value.text := by
  induction fields with
  | nil => rfl
  | cons field rest ih => rw [fieldTexts, ih, List.map_cons]

theorem writtenMoreItems_eq (items : List Document) :
    writtenMoreItems items = (items.flatMap fun item => ',' :: item.written) ++ [']'] := by
  induction items with
  | nil => rfl
  | cons item rest ih => simp [writtenMoreItems, ih]

theorem writtenMoreFields_eq (fields : Fields) :
    writtenMoreFields fields =
      (fields.flatMap fun (name, value) => ',' :: writtenText name ++ ':' :: value.written) ++
        ['}'] := by
  induction fields with
  | nil => rfl
  | cons field rest ih => simp [writtenMoreFields, ih]

/-- Each text behind the first has a comma in front. -/
theorem toList_intercalate_comma (first : String) (rest : List String) :
    (",".intercalate (first :: rest)).toList =
      first.toList ++ rest.flatMap fun text => ',' :: text.toList := by
  induction rest generalizing first with
  | nil => simp
  | cons next others ih =>
    rw [String.intercalate_cons_cons, String.toList_append, ih]
    simp

section Parts

variable {items : List Document} {fields : Fields}

theorem toList_array (each : ∀ item ∈ items, item.text.toList = item.written) :
    (array items).text.toList = (array items).written := by
  cases items with
  | nil => rfl
  | cons first rest =>
    obtain ⟨head, tail⟩ := List.forall_mem_cons.mp each
    have others : (rest.flatMap fun item => ',' :: item.text.toList) =
        rest.flatMap fun item => ',' :: item.written :=
      List.flatMap_congr fun item member => by rw [tail item member]
    rw [text, itemTexts_eq, List.map_cons, String.toList_append, String.toList_append,
      toList_intercalate_comma, List.flatMap_map, head, others, written, writtenItems,
      writtenMoreItems_eq]
    simp

theorem toList_object (each : ∀ field ∈ fields, field.2.text.toList = field.2.written) :
    (object fields).text.toList = (object fields).written := by
  cases fields with
  | nil => rfl
  | cons first rest =>
    obtain ⟨head, tail⟩ := List.forall_mem_cons.mp each
    have others : (rest.flatMap fun field =>
          ',' :: (quoted field.1 ++ ":" ++ field.2.text).toList) =
        rest.flatMap fun field => ',' :: writtenText field.1 ++ ':' :: field.2.written :=
      List.flatMap_congr fun field member => by simp [toList_quoted, tail field member]
    rw [text, fieldTexts_eq, List.map_cons, String.toList_append, String.toList_append,
      toList_intercalate_comma, List.flatMap_map, others, written, writtenFields,
      writtenMoreFields_eq]
    simp [toList_quoted, head]

end Parts

theorem toList_text (document : Document) : document.text.toList = document.written := by
  induction document using Document.induction_nested with
  | null | number => rfl
  | bool value => cases value <;> rfl
  | string value => exact toList_quoted value
  | array items each => exact toList_array each
  | object fields each => exact toList_object each

end Document

end DocQuery
