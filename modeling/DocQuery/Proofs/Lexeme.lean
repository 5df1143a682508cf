import DocQuery.Expression.Condition
import DocQuery.Expression.Update
import DocQuery.Proofs.TokenChoice
import Mathlib.Data.List.SplitBy

/-!
# DocQuery.Proofs.Lexeme

The lexemes of an expression, as the store reads it.

Blanks, parentheses and commas stand alone. Every other lexeme is a run of characters: the signs
of comparators on one side, the characters of paths, tokens and words on the other.

## Main results

`lex_append_alone`: a character that stands alone cuts the lexemes of a text in two.
`lex_comparison`: a comparator cuts off the words on its sides.
`isWordOf_value`: the text of a value token is one lexeme.
-/

namespace DocQuery

/-! ### Lexemes -/

/-- The functions of expressions. -/
inductive Function where
  | contains
  | beginsWith
  | present
  | absent
  /-- What an attribute holds, or a value if it is missing. -/
  | orElse
  | append
deriving DecidableEq, Repr

def Function.name : Function → String
  | .contains => "contains"
  | .beginsWith => "begins_with"
  | .present => "attribute_exists"
  | .absent => "attribute_not_exists"
  | .orElse => "if_not_exists"
  | .append => "list_append"

inductive Lexeme where
  | path (path : Path)
  | value (token : Token)
  | sign (comparator : Comparator)
  | opening
  | closing
  | comma
  | and
  | or
  | not
  | between
  | oneOf
  | call (function : Function)
  | clause (clause : Clause)
  /-- Anything that has no place in an expression. -/
  | other
deriving DecidableEq, Repr

/-- Indices in brackets, each of at least one digit. -/
inductive IsIndices : List Char → Prop where
  | nil : IsIndices []
  | cons {digits rest : List Char} (nonempty : digits ≠ []) (digit : digits.all Char.isDigit)
    (indices : IsIndices rest) : IsIndices ('[' :: digits ++ ']' :: rest)

mutual

/-- Whether a text is indices in brackets. -/
def isIndices : List Char → Bool
  | [] => true
  | c :: rest => c = '[' && isIndicesFromFirst rest

/-- Whether a text goes on with the first digit of an index. -/
def isIndicesFromFirst : List Char → Bool
  | [] => false
  | c :: rest => c.isDigit && isIndicesFromNext rest

/-- Whether a text goes on after a digit of an index. -/
def isIndicesFromNext : List Char → Bool
  | [] => false
  | c :: rest => if c = ']' then isIndices rest else c.isDigit && isIndicesFromNext rest

end

/-- Whether a text is a name token: a hash and characters of tokens. -/
def isName : List Char → Bool
  | '#' :: rest => rest ≠ [] && rest.all isTokenChar
  | _ => false

/-- Whether a text is a value token: a colon and characters of tokens. -/
def isValue : List Char → Bool
  | ':' :: rest => rest ≠ [] && rest.all isTokenChar
  | _ => false

/-- Whether a step is a name token with indices. -/
def Step.isSpelled (step : Step) : Bool :=
  isName step.name.toList && isIndices step.index.toList

/-- The lexeme of a run without a token. -/
def Lexeme.ofWord : String → Lexeme
  | "(" => .opening
  | ")" => .closing
  | "," => .comma
  | "=" => .sign .eq
  | "<>" => .sign .ne
  | "<" => .sign .lt
  | "<=" => .sign .le
  | ">" => .sign .gt
  | ">=" => .sign .ge
  | "AND" => .and
  | "OR" => .or
  | "NOT" => .not
  | "BETWEEN" => .between
  | "IN" => .oneOf
  | "contains" => .call .contains
  | "begins_with" => .call .beginsWith
  | "attribute_exists" => .call .present
  | "attribute_not_exists" => .call .absent
  | "if_not_exists" => .call .orElse
  | "list_append" => .call .append
  | "SET" => .clause .set
  | "REMOVE" => .clause .remove
  | "ADD" => .clause .add
  | "DELETE" => .clause .delete
  | _ => .other

/-- The lexeme of a run of characters. -/
def Lexeme.ofRun (run : List Char) : Lexeme :=
  if run.head? = some '#' then
    let path := Path.ofText (String.ofList run)
    if path.all Step.isSpelled then .path path else .other
  else if run.head? = some ':' then
    if isValue run then .value (String.ofList run) else .other
  else
    .ofWord (String.ofList run)

/-- Characters that are lexemes, or blanks, by themselves. -/
def isAlone (c : Char) : Bool :=
  c = ' ' || c = '(' || c = ')' || c = ','

/-- Characters of comparators. -/
def isSign (c : Char) : Bool :=
  c = '=' || c = '<' || c = '>'

/-- Characters of paths, tokens and words. -/
def isWordChar (c : Char) : Bool :=
  !isAlone c && !isSign c

/-- Whether two neighbouring characters belong to one run. -/
def sameRun (a b : Char) : Bool :=
  !isAlone a && !isAlone b && isSign a == isSign b

/-- The lexemes of a text; blanks only set them apart. -/
def lex (text : List Char) : List Lexeme :=
  ((text.splitBy sameRun).filter (· ≠ [' '])).map Lexeme.ofRun

/-! ### Cutting a text into lexemes -/

@[simp] theorem lex_nil : lex [] = [] := rfl

theorem lex_append {xs ys : List Char}
    (apart : ∀ a ∈ xs.getLast?, ∀ b ∈ ys.head?, sameRun a b = false) :
    lex (xs ++ ys) = lex xs ++ lex ys := by
  simp only [lex, List.splitBy_append apart, List.filter_append, List.map_append]

theorem sameRun_alone_right {a b : Char} (alone : isAlone b = true) : sameRun a b = false := by
  simp [sameRun, alone]

theorem sameRun_alone_left {a b : Char} (alone : isAlone a = true) : sameRun a b = false := by
  simp [sameRun, alone]

/-- A character that stands alone cuts a text in two. -/
theorem lex_append_alone (xs ys : List Char) {c : Char} (alone : isAlone c = true) :
    lex (xs ++ c :: ys) = lex xs ++ (lex [c] ++ lex ys) := by
  have before : lex (xs ++ c :: ys) = lex xs ++ lex (c :: ys) :=
    lex_append fun a _ b head => by
      simp only [List.head?_cons, Option.mem_def, Option.some.injEq] at head
      exact sameRun_alone_right (head ▸ alone)
  have after : lex ([c] ++ ys) = lex [c] ++ lex ys :=
    lex_append fun a last b _ => by
      simp only [List.getLast?_singleton, Option.mem_def, Option.some.injEq] at last
      exact sameRun_alone_left (last ▸ alone)
  rw [before, ← after, List.singleton_append]

theorem lex_append_blank (xs ys : List Char) : lex (xs ++ ' ' :: ys) = lex xs ++ lex ys :=
  lex_append_alone xs ys rfl

theorem lex_append_opening (xs ys : List Char) :
    lex (xs ++ '(' :: ys) = lex xs ++ .opening :: lex ys :=
  lex_append_alone xs ys rfl

theorem lex_append_closing (xs ys : List Char) :
    lex (xs ++ ')' :: ys) = lex xs ++ .closing :: lex ys :=
  lex_append_alone xs ys rfl

theorem lex_append_comma (xs ys : List Char) :
    lex (xs ++ ',' :: ys) = lex xs ++ .comma :: lex ys :=
  lex_append_alone xs ys rfl

/-- A keyword between blanks. -/
theorem lex_append_keyword (xs ys : List Char) (keyword : String) {lexeme : Lexeme}
    (read : lex keyword.toList = [lexeme]) :
    lex (xs ++ (' ' :: keyword.toList ++ [' ']) ++ ys) = lex xs ++ lexeme :: lex ys := by
  -- The blanks cut the keyword off on both sides and leave no lexemes themselves.
  have shape : xs ++ (' ' :: keyword.toList ++ [' ']) ++ ys =
      xs ++ ' ' :: (keyword.toList ++ ' ' :: ys) := by simp
  rw [shape, lex_append_blank, lex_append_blank, read, List.singleton_append]

/-- The name of a function and its opening parenthesis. -/
theorem lex_call (function : Function) (rest : List Char) :
    lex (function.name.toList ++ '(' :: rest) = .call function :: .opening :: lex rest := by
  have name : lex function.name.toList = [.call function] := by
    cases function <;> decide
  rw [lex_append_opening, name, List.singleton_append]

theorem lex_separator (xs ys : List Char) :
    lex (xs ++ (", ".toList ++ ys)) = lex xs ++ .comma :: lex ys := by
  have shape : xs ++ (", ".toList ++ ys) = xs ++ ',' :: ([] ++ ' ' :: ys) := rfl
  rw [shape, lex_append_comma, lex_append_blank, lex_nil, List.nil_append]

theorem lex_append_end (xs : List Char) : lex (xs ++ ")".toList) = lex xs ++ [.closing] :=
  lex_append_closing xs []

/-- Characters of one class are one run. -/
theorem lex_run {run : List Char} (nonempty : run ≠ [])
    (chain : run.IsChain fun a b => sameRun a b = true) (shown : run ≠ [' ']) :
    lex run = [Lexeme.ofRun run] := by
  simp [lex, List.splitBy_of_isChain nonempty chain, shown]

theorem isChain_of_forall {run : List Char} {same : Char → Bool}
    (all : run.all same = true)
    (related : ∀ a b, same a = true → same b = true → sameRun a b = true) :
    run.IsChain fun a b => sameRun a b = true := by
  rw [List.all_eq_true] at all
  apply List.Pairwise.isChain
  apply List.pairwise_of_forall_mem_list
  exact fun a inA b inB => related a b (all a inA) (all b inB)

theorem sameRun_of_isWordChar (a b : Char) (left : isWordChar a = true)
    (right : isWordChar b = true) : sameRun a b = true := by
  simp only [isWordChar, Bool.and_eq_true, Bool.not_eq_true'] at left right
  simp [sameRun, left, right]

theorem lex_word {run : List Char} (nonempty : run ≠ []) (word : run.all isWordChar = true) :
    lex run = [Lexeme.ofRun run] := by
  apply lex_run nonempty (isChain_of_forall word sameRun_of_isWordChar)
  -- A blank is no word.
  rintro rfl
  simp [isWordChar, isAlone] at word

/-- A comparator cuts off the words on its sides. -/
theorem lex_comparison {left right : List Char} (comparator : Comparator)
    (leftNonempty : left ≠ []) (rightNonempty : right ≠ []) (wordLeft : left.all isWordChar = true)
    (wordRight : right.all isWordChar = true) :
    lex (left ++ (comparator.text.toList ++ right)) =
      [Lexeme.ofRun left, .sign comparator, Lexeme.ofRun right] := by
  have sign : comparator.text.toList.all isSign = true := by cases comparator <;> decide
  have isOne : lex comparator.text.toList = [.sign comparator] := by
    cases comparator <;> decide
  -- Signs and words are classes of their own, so a run ends where they meet.
  have apart {a b : Char} (word : isWordChar a = true) (sign : isSign b = true) :
      sameRun a b = false ∧ sameRun b a = false := by
    simp only [isWordChar, Bool.and_eq_true, Bool.not_eq_true'] at word
    simp [sameRun, word, sign]
  rw [List.all_eq_true] at sign wordLeft wordRight
  rw [lex_append, lex_append, lex_word leftNonempty (List.all_eq_true.mpr wordLeft), isOne,
    lex_word rightNonempty (List.all_eq_true.mpr wordRight)]
  · rfl
  · intro a last b head
    exact (apart (wordRight b (List.mem_of_mem_head? head))
      (sign a (List.mem_of_mem_getLast? last))).2
  · intro a last b head
    have first : b ∈ comparator.text.toList.head? := by
      cases comparator <;> simpa [Comparator.text] using head
    exact (apart (wordLeft a (List.mem_of_mem_getLast? last))
      (sign b (List.mem_of_mem_head? first))).1

/-! ### Tokens and paths -/

theorem isWordChar_of_isTokenChar {c : Char} (token : isTokenChar c = true) :
    isWordChar c = true := by
  have alone : isAlone c = false := by
    by_contra alone
    simp only [isAlone, Bool.not_eq_false, Bool.or_eq_true, decide_eq_true_eq] at alone
    rcases alone with ((rfl | rfl) | rfl) | rfl <;> simp [isTokenChar] at token
  have sign : isSign c = false := by
    by_contra sign
    simp only [isSign, Bool.not_eq_false, Bool.or_eq_true, decide_eq_true_eq] at sign
    rcases sign with (rfl | rfl) | rfl <;> simp [isTokenChar] at token
  simp [isWordChar, alone, sign]

/-- A text that is one word of an expression, and the lexeme that the word is read as. -/
structure IsWordOf (text : List Char) (lexeme : Lexeme) : Prop where
  nonempty : text ≠ []
  word : text.all isWordChar = true
  lexeme : Lexeme.ofRun text = lexeme

theorem IsWordOf.lex {text : List Char} {lexeme : Lexeme} (word : IsWordOf text lexeme) :
    lex text = [lexeme] := by
  rw [lex_word word.nonempty word.word, word.lexeme]

theorem lex_comparison_of_words {left right : List Char} {first second : Lexeme}
    (comparator : Comparator) (wordLeft : IsWordOf left first)
    (wordRight : IsWordOf right second) :
    DocQuery.lex (left ++ (comparator.text.toList ++ right)) =
      [first, .sign comparator, second] := by
  rw [lex_comparison comparator wordLeft.nonempty wordRight.nonempty wordLeft.word wordRight.word,
    wordLeft.lexeme, wordRight.lexeme]

theorem isValue_iff {text : List Char} : isValue text = true ↔
    ∃ rest, text = ':' :: rest ∧ rest ≠ [] ∧ rest.all isTokenChar = true := by
  constructor
  · intro value
    unfold isValue at value
    split at value
    next rest => exact ⟨rest, rfl, by simpa using value⟩
    next => cases value
  · rintro ⟨rest, rfl, nonempty, chars⟩
    simp [isValue, nonempty, chars]

theorem isName_iff {text : List Char} : isName text = true ↔
    ∃ rest, text = '#' :: rest ∧ rest ≠ [] ∧ rest.all isTokenChar = true := by
  constructor
  · intro name
    unfold isName at name
    split at name
    next rest => exact ⟨rest, rfl, by simpa using name⟩
    next => cases name
  · rintro ⟨rest, rfl, nonempty, chars⟩
    simp [isName, nonempty, chars]

/-- A sigil and characters of tokens, as in the text of any token. -/
theorem isWordChar_of_sigil {sigil : Char} {rest : List Char} (word : isWordChar sigil = true)
    (chars : rest.all isTokenChar = true) : (sigil :: rest).all isWordChar = true := by
  rw [List.all_eq_true] at chars
  simp only [List.all_cons, Bool.and_eq_true, List.all_eq_true]
  exact ⟨word, fun c member => isWordChar_of_isTokenChar (chars c member)⟩

theorem isWordChar_of_isValue {text : List Char} (value : isValue text = true) :
    text.all isWordChar = true := by
  obtain ⟨rest, rfl, -, chars⟩ := isValue_iff.mp value
  exact isWordChar_of_sigil rfl chars

theorem isWordChar_of_isName {text : List Char} (name : isName text = true) :
    text.all isWordChar = true := by
  obtain ⟨rest, rfl, -, chars⟩ := isName_iff.mp name
  exact isWordChar_of_sigil rfl chars

/-- A value token is one lexeme. -/
theorem isWordOf_value {token : Token} (value : isValue token.toList = true) :
    IsWordOf token.toList (.value token) := by
  obtain ⟨rest, shape, -, -⟩ := isValue_iff.mp value
  refine ⟨by simp [shape], isWordChar_of_isValue value, ?_⟩
  have first : token.toList.head? = some ':' := by simp [shape]
  simp [Lexeme.ofRun, first, value]

/-! ### Indices -/

theorem isIndicesFromNext_of_digits {digits rest : List Char}
    (digit : digits.all Char.isDigit = true) (indices : isIndices rest = true) :
    isIndicesFromNext (digits ++ ']' :: rest) = true := by
  induction digits with
  | nil => simp [isIndicesFromNext, indices]
  | cons c digits ih =>
    simp only [List.all_cons, Bool.and_eq_true] at digit
    -- A digit does not end the index.
    have notClosing : c ≠ ']' := by
      rintro rfl
      simp [Char.isDigit] at digit
    simp [isIndicesFromNext, notClosing, digit.1, ih digit.2]

theorem isIndices_of_isIndices {text : List Char} (indices : IsIndices text) :
    isIndices text = true := by
  induction indices with
  | nil => rfl
  | @cons digits rest nonempty digit _ ih =>
    cases digits with
    | nil => exact absurd rfl nonempty
    | cons c digits =>
      simp only [List.all_cons, Bool.and_eq_true] at digit
      simp [isIndices, isIndicesFromFirst, digit.1, isIndicesFromNext_of_digits digit.2 ih]

mutual

theorem isIndices_sound : ∀ {text : List Char}, isIndices text = true → IsIndices text
  | [], _ => .nil
  | c :: rest, indices => by
    simp only [isIndices, Bool.and_eq_true, decide_eq_true_eq] at indices
    obtain ⟨digits, others, rfl, nonempty, digit, tail⟩ := isIndicesFromFirst_sound indices.2
    rw [indices.1]
    exact .cons nonempty digit tail

theorem isIndicesFromFirst_sound : ∀ {text : List Char}, isIndicesFromFirst text = true →
    ∃ digits rest, text = digits ++ ']' :: rest ∧ digits ≠ [] ∧ digits.all Char.isDigit ∧
      IsIndices rest
  | c :: rest, indices => by
    simp only [isIndicesFromFirst, Bool.and_eq_true] at indices
    obtain ⟨digits, others, rfl, digit, tail⟩ := isIndicesFromNext_sound indices.2
    exact ⟨c :: digits, others, rfl, List.cons_ne_nil c digits, by simp [indices.1, digit], tail⟩

theorem isIndicesFromNext_sound : ∀ {text : List Char}, isIndicesFromNext text = true →
    ∃ digits rest, text = digits ++ ']' :: rest ∧ digits.all Char.isDigit ∧ IsIndices rest
  | c :: rest, indices => by
    rw [isIndicesFromNext] at indices
    split at indices
    next closing =>
      -- The digits end here, and the next index starts if there is one.
      subst closing
      exact ⟨[], rest, rfl, rfl, isIndices_sound indices⟩
    next =>
      simp only [Bool.and_eq_true] at indices
      obtain ⟨digits, others, rfl, digit, tail⟩ := isIndicesFromNext_sound indices.2
      exact ⟨c :: digits, others, rfl, by simp [indices.1, digit], tail⟩

end

theorem isIndices_iff {text : List Char} : isIndices text = true ↔ IsIndices text :=
  ⟨isIndices_sound, isIndices_of_isIndices⟩

/-- The characters of indices. -/
def isIndexChar (c : Char) : Bool :=
  c = '[' || c = ']' || c.isDigit

theorem all_isIndexChar_of_isIndices {text : List Char} (indices : isIndices text = true) :
    text.all isIndexChar = true := by
  induction isIndices_iff.mp indices with
  | nil => rfl
  | @cons digits rest _ digit tail ih =>
    have ofDigits : digits.all isIndexChar = true := by
      rw [List.all_eq_true] at digit ⊢
      intro c member
      simp [isIndexChar, digit c member]
    have ofRest := ih (isIndices_iff.mpr tail)
    have opening : isIndexChar '[' = true := rfl
    have closing : isIndexChar ']' = true := rfl
    simp only [List.cons_append, List.all_cons, List.all_append, opening, closing, ofDigits,
      ofRest, Bool.and_self]

theorem isIndices_head {text : List Char} (indices : isIndices text = true) :
    text = [] ∨ ∃ rest, text = '[' :: rest := by
  cases text with
  | nil => exact .inl rfl
  | cons c rest =>
    simp only [isIndices, Bool.and_eq_true, decide_eq_true_eq] at indices
    exact .inr ⟨rest, by rw [indices.1]⟩

theorem isWordChar_of_isIndexChar {c : Char} (index : isIndexChar c = true) :
    isWordChar c = true := by
  simp only [isIndexChar, Bool.or_eq_true, decide_eq_true_eq] at index
  rcases index with (rfl | rfl) | digit
  · rfl
  · rfl
  · exact isWordChar_of_isTokenChar (isTokenChar_of_isDigit digit)

end DocQuery
