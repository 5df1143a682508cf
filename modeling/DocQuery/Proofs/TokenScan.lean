import DocQuery.Expression.Projection
import DocQuery.Proofs.ConditionReader
import DocQuery.Proofs.UpdateReader
import Mathlib.Data.List.TakeWhile

/-!
# DocQuery.Proofs.TokenScan

The tokens that occur in the text of an expression.

A token starts at its sigil and goes on as long as characters of tokens follow, so one token can
be the start of another without occurring in it. Texts are put together at characters that no
token holds, which is why the tokens of a whole are those of its parts.

## Main results

`Condition.tokensIn_text`, `Action.tokensIn_text`, `Projection.tokensIn_text`: the text of an
expression holds the tokens of the expression and no others.
-/

namespace DocQuery

/-! ### Scanning -/

inductive TokenKind where
  | name
  | value
deriving DecidableEq, Repr

namespace TokenKind

def sigil : TokenKind → Char
  | .name => '#'
  | .value => ':'

/-- The token of a sigil and the characters of tokens that follow it. -/
def ofRun? : TokenKind → List Char → Option Token
  | .name, run => if "#k_".toList.isPrefixOf run then some (String.ofList run) else none
  | .value, run =>
    if ":v_".toList.isPrefixOf run then some (String.ofList run)
    else if emptyListToken.toList.isPrefixOf run then some emptyListToken
    else none

/-- The shape of the tokens that are made for requests. -/
def IsToken : TokenKind → Token → Prop
  | .name, token => IsNameToken token
  | .value, token => IsValueToken token ∨ token = emptyListToken

/-- Tokens of names, where tokens of this kind are asked for. -/
def ifName : TokenKind → List Token → List Token
  | .name, tokens => tokens
  | .value, _ => []

/-- Tokens of values, where tokens of this kind are asked for. -/
def ifValue : TokenKind → List Token → List Token
  | .name, _ => []
  | .value, tokens => tokens

@[simp] theorem ifName_name (tokens : List Token) : name.ifName tokens = tokens := rfl

@[simp] theorem ifName_value (tokens : List Token) : value.ifName tokens = [] := rfl

@[simp] theorem ifValue_name (tokens : List Token) : name.ifValue tokens = [] := rfl

@[simp] theorem ifValue_value (tokens : List Token) : value.ifValue tokens = tokens := rfl

end TokenKind

/-- The tokens of a kind in a text, each taken as long as it can be. -/
def scan (kind : TokenKind) : List Char → List Token
  | [] => []
  | c :: rest => (kind.ofRun? (c :: rest.takeWhile isTokenChar)).toList ++ scan kind rest

/-- The tokens of a kind that occur in an expression. -/
def tokensIn (kind : TokenKind) (text : String) : List Token :=
  scan kind text.toList

section Scan

variable {kind : TokenKind} {xs ys : List Char}

theorem ofRun?_of_ne_sigil {c : Char} (run : List Char) (plain : c ≠ kind.sigil) :
    kind.ofRun? (c :: run) = none := by
  have name : "#k_".toList = ['#', 'k', '_'] := rfl
  have value : ":v_".toList = [':', 'v', '_'] := rfl
  have empty : ∃ rest, emptyListToken.toList = ':' :: rest := ⟨_, rfl⟩
  obtain ⟨rest, empty⟩ := empty
  cases kind with
  | name => simp [TokenKind.ofRun?, name, show '#' ≠ c from Ne.symm plain]
  | value => simp [TokenKind.ofRun?, value, empty, show ':' ≠ c from Ne.symm plain]

/-- Where there is no sigil, there is no token. -/
theorem scan_plain_append (plain : kind.sigil ∉ xs) : scan kind (xs ++ ys) = scan kind ys := by
  induction xs with
  | nil => rfl
  | cons c xs ih =>
    rw [List.mem_cons, not_or] at plain
    rw [List.cons_append, scan, ofRun?_of_ne_sigil _ (Ne.symm plain.1), ih plain.2]
    rfl

theorem scan_plain (plain : kind.sigil ∉ xs) : scan kind xs = [] := by
  have alone := @scan_plain_append kind xs [] plain
  rwa [List.append_nil] at alone

/-- A character that no token holds cuts the tokens of a text in two. -/
theorem scan_append (apart : ∀ c ∈ ys.head?, isTokenChar c = false) :
    scan kind (xs ++ ys) = scan kind xs ++ scan kind ys := by
  -- No run of `xs` goes on into `ys`.
  have stops : ys.takeWhile isTokenChar = [] := by
    cases ys with
    | nil => rfl
    | cons c ys => simp [apart c rfl]
  induction xs with
  | nil => rfl
  | cons c xs ih =>
    have run : (xs ++ ys).takeWhile isTokenChar = xs.takeWhile isTokenChar := by
      rw [List.takeWhile_append, stops]
      split
      -- The run reaches the end of `xs`, or ends before it.
      next whole => rw [List.append_nil, (List.takeWhile_prefix _).eq_of_length whole]
      next => rfl
    rw [List.cons_append, scan, scan, run, ih, List.append_assoc]

/-- Texts that stand between tokens: they hold no sigil and start with no character of tokens. -/
def isSeparator (text : List Char) : Bool :=
  text.head?.any (fun c => !isTokenChar c) && text.all fun c => c ≠ '#' && c ≠ ':'

theorem sigil_not_mem_of_isSeparator (separates : isSeparator xs = true) : kind.sigil ∉ xs := by
  intro member
  simp only [isSeparator, Bool.and_eq_true, List.all_eq_true] at separates
  have notSigil := separates.2 kind.sigil member
  cases kind <;> simp [TokenKind.sigil] at notSigil

theorem scan_separated {separator : List Char} (separates : isSeparator separator = true) :
    scan kind (xs ++ (separator ++ ys)) = scan kind xs ++ scan kind ys := by
  have plain : kind.sigil ∉ separator := sigil_not_mem_of_isSeparator separates
  rw [scan_append, scan_plain_append plain]
  intro c head
  cases separator with
  | nil => simp [isSeparator] at separates
  | cons first rest =>
    simp only [List.cons_append, List.head?_cons, Option.mem_def, Option.some.injEq] at head
    subst head
    simp only [isSeparator, List.head?_cons, Option.any_some, Bool.and_eq_true,
      Bool.not_eq_true'] at separates
    exact separates.1

end Scan

/-! ### Texts put together -/

section Texts

variable {kind : TokenKind}

theorem tokensIn_separated (text separator rest : String)
    (separates : isSeparator separator.toList = true) :
    tokensIn kind (text ++ separator ++ rest) = tokensIn kind text ++ tokensIn kind rest := by
  simp only [tokensIn, String.toList_append, List.append_assoc]
  exact scan_separated separates

theorem tokensIn_append_separator (text separator : String)
    (separates : isSeparator separator.toList = true) :
    tokensIn kind (text ++ separator) = tokensIn kind text := by
  have ended : tokensIn kind (text ++ separator ++ "") = tokensIn kind text ++ tokensIn kind "" :=
    tokensIn_separated text separator "" separates
  rw [String.append_empty] at ended
  rw [ended]
  exact List.append_nil _

/-- A start without sigils holds no tokens. -/
theorem tokensIn_plain_append (start text : String)
    (plain : (start.toList.all fun c => c ≠ '#' && c ≠ ':') = true) :
    tokensIn kind (start ++ text) = tokensIn kind text := by
  simp only [tokensIn, String.toList_append]
  apply scan_plain_append
  intro member
  have notSigil := List.all_eq_true.mp plain kind.sigil member
  cases kind <;> simp [TokenKind.sigil] at notSigil

theorem tokensIn_intercalate {separator : String}
    (separates : isSeparator separator.toList = true) : ∀ texts : List String,
      tokensIn kind (separator.intercalate texts) = texts.flatMap (tokensIn kind)
  | [] => rfl
  | [text] => by simp
  | text :: next :: others => by
    rw [String.intercalate_cons_cons, tokensIn_separated _ _ _ separates,
      tokensIn_intercalate separates (next :: others)]
    rfl

end Texts

/-! ### Tokens -/

section Tokens

variable {kind : TokenKind} {token : Token}

theorem sigil_not_tokenChar (kind : TokenKind) : isTokenChar kind.sigil = false := by
  cases kind <;> decide

/-- A run of a sigil and characters of tokens is scanned as a whole. -/
theorem scan_run (c : Char) {run : List Char} (chars : run.all isTokenChar = true) :
    scan kind (c :: run) = (kind.ofRun? (c :: run)).toList := by
  rw [List.all_eq_true] at chars
  have whole : run.takeWhile isTokenChar = run := List.takeWhile_eq_self_iff.mpr chars
  -- A token holds no second sigil, so no token starts inside of it.
  have plain : kind.sigil ∉ run := by
    intro member
    have char := chars kind.sigil member
    rw [sigil_not_tokenChar] at char
    cases char
  rw [scan, whole, scan_plain plain, List.append_nil]

theorem tokensIn_nameToken (made : IsNameToken token) :
    tokensIn kind token = kind.ifName [token] := by
  obtain ⟨text, rfl, chars⟩ := made
  have shape : ("#k_" ++ text).toList = '#' :: 'k' :: '_' :: text.toList := by simp
  have run : ('k' :: '_' :: text.toList).all isTokenChar = true := by
    simpa [isTokenChar] using chars
  rw [tokensIn, shape, scan_run '#' run]
  cases kind with
  | name =>
    have start : "#k_".toList = ['#', 'k', '_'] := rfl
    have token : String.ofList ('#' :: 'k' :: '_' :: text.toList) = "#k_" ++ text := by
      rw [← shape, String.ofList_toList]
    simp [TokenKind.ofRun?, start, token]
  | value =>
    rw [ofRun?_of_ne_sigil _ (by decide)]
    rfl

theorem tokensIn_valueToken (made : TokenKind.value.IsToken token) :
    tokensIn kind token = kind.ifValue [token] := by
  rcases made with ⟨text, rfl, chars⟩ | rfl
  · have shape : (":v_" ++ text).toList = ':' :: 'v' :: '_' :: text.toList := by simp
    have run : ('v' :: '_' :: text.toList).all isTokenChar = true := by
      simpa [isTokenChar] using chars
    rw [tokensIn, shape, scan_run ':' run]
    cases kind with
    | name =>
      rw [ofRun?_of_ne_sigil _ (by decide)]
      rfl
    | value =>
      have start : ":v_".toList = [':', 'v', '_'] := rfl
      have token : String.ofList (':' :: 'v' :: '_' :: text.toList) = ":v_" ++ text := by
        rw [← shape, String.ofList_toList]
      simp [TokenKind.ofRun?, start, token]
  · cases kind <;> decide

end Tokens

/-! ### Tokens of expressions -/

/-- All tokens have the shape of tokens that are made for requests. -/
def Made (tokens : TokenKind → List Token) : Prop :=
  ∀ kind, ∀ token ∈ tokens kind, kind.IsToken token

theorem made_append {tokens others : TokenKind → List Token} :
    (Made fun kind => tokens kind ++ others kind) ↔ Made tokens ∧ Made others := by
  simp only [Made, List.mem_append, or_imp, forall_and]

theorem made_flatMap {α : Type} {items : List α} {tokens : α → TokenKind → List Token} :
    (Made fun kind => items.flatMap fun item => tokens item kind) ↔
      ∀ item ∈ items, Made (tokens item) := by
  simp only [Made, List.mem_flatMap]
  constructor
  · intro made item member kind token inTokens
    exact made kind token ⟨item, member, inTokens⟩
  · rintro made kind token ⟨item, member, inTokens⟩
    exact made item member kind token inTokens

theorem made_ifName {tokens : List Token} :
    (Made fun kind => kind.ifName tokens) ↔ ∀ token ∈ tokens, IsNameToken token := by
  refine ⟨fun made => made .name, fun shape kind => ?_⟩
  cases kind with
  | name => exact shape
  | value => exact List.forall_mem_nil _

theorem made_ifValue {tokens : List Token} :
    (Made fun kind => kind.ifValue tokens) ↔
      ∀ token ∈ tokens, TokenKind.value.IsToken token := by
  refine ⟨fun made => made .value, fun shape kind => ?_⟩
  cases kind with
  | name => exact List.forall_mem_nil _
  | value => exact shape

def Path.tokens (path : Path) (kind : TokenKind) : List Token :=
  kind.ifName (path.map Step.name)

def Predicate.tokens (predicate : Predicate) (kind : TokenKind) : List Token :=
  predicate.path.tokens kind ++ kind.ifValue predicate.operands

def Action.tokens (action : Action) (kind : TokenKind) : List Token :=
  action.path.tokens kind ++ kind.ifValue action.operands

section Expressions

variable {kind : TokenKind}

theorem Step.tokensIn_text {step : Step} (made : IsNameToken step.name)
    (indices : isIndices step.index.toList = true) :
    tokensIn kind step.text = kind.ifName [step.name] := by
  have chars := List.all_eq_true.mp (all_isIndexChar_of_isIndices indices)
  -- The index holds no tokens, and its bracket ends the token of the name.
  have plain : kind.sigil ∉ step.index.toList := by
    intro member
    have char := chars kind.sigil member
    cases kind <;> simp [TokenKind.sigil, isIndexChar] at char
  have apart : ∀ c ∈ step.index.toList.head?, isTokenChar c = false := by
    rcases isIndices_head indices with empty | ⟨rest, shape⟩
    · simp [empty]
    · simp [shape, isTokenChar]
  have name : tokensIn kind step.name = kind.ifName [step.name] := tokensIn_nameToken made
  rw [tokensIn] at name ⊢
  rw [Step.text, String.toList_append, scan_append apart, scan_plain plain, name, List.append_nil]

theorem Path.tokensIn_text {path : Path} (spelled : path.IsSpelled)
    (made : ∀ step ∈ path, IsNameToken step.name) : tokensIn kind path.text = path.tokens kind := by
  rw [Path.text, tokensIn_intercalate (by decide), List.flatMap_map, Path.tokens]
  have each : ∀ step ∈ path, tokensIn kind step.text = kind.ifName [step.name] :=
    fun step member => Step.tokensIn_text (made step member)
      (Step.isSpelled_iff.mp (spelled.2 step member)).2
  rw [List.flatMap_congr each]
  cases kind <;> simp [List.map_eq_flatMap]

/-- What is made of a path and of operands behind it. -/
theorem Made.split {path : Path} {operands : List Token}
    (made : Made fun kind => path.tokens kind ++ kind.ifValue operands) :
    (∀ step ∈ path, IsNameToken step.name) ∧
      ∀ operand ∈ operands, TokenKind.value.IsToken operand := by
  obtain ⟨names, values⟩ := made_append.mp made
  exact ⟨List.forall_mem_map.mp (made_ifName.mp names), made_ifValue.mp values⟩

theorem tokensIn_operands {separator : String} (separates : isSeparator separator.toList = true)
    {operands : List Token} (made : ∀ operand ∈ operands, TokenKind.value.IsToken operand) :
    tokensIn kind (separator.intercalate operands) = kind.ifValue operands := by
  rw [tokensIn_intercalate separates,
    List.flatMap_congr fun operand member => tokensIn_valueToken (made operand member)]
  cases kind <;> simp

/-- A path and an operand with something between them that is no token. -/
theorem tokensIn_path_value {path : Path} {operand : Token} (separator : String)
    (separates : isSeparator separator.toList = true) (spelled : path.IsSpelled)
    (made : ∀ step ∈ path, IsNameToken step.name) (value : TokenKind.value.IsToken operand) :
    tokensIn kind (path.text ++ separator ++ operand) =
      path.tokens kind ++ kind.ifValue [operand] := by
  rw [tokensIn_separated _ _ _ separates, Path.tokensIn_text spelled made,
    tokensIn_valueToken value]

/-- A function applied to a path. -/
theorem tokensIn_call_path {path : Path} (start : String)
    (plain : (start.toList.all fun c => c ≠ '#' && c ≠ ':') = true)
    (spelled : path.IsSpelled) (made : ∀ step ∈ path, IsNameToken step.name) :
    tokensIn kind (start ++ path.text ++ ")") = path.tokens kind := by
  rw [tokensIn_append_separator _ _ (by decide), tokensIn_plain_append start _ plain,
    Path.tokensIn_text spelled made]

/-- A function applied to a path and an operand. -/
theorem tokensIn_call_path_value {path : Path} {operand : Token} (start : String)
    (plain : (start.toList.all fun c => c ≠ '#' && c ≠ ':') = true)
    (spelled : path.IsSpelled) (made : ∀ step ∈ path, IsNameToken step.name)
    (value : TokenKind.value.IsToken operand) :
    tokensIn kind (start ++ path.text ++ ", " ++ operand ++ ")") =
      path.tokens kind ++ kind.ifValue [operand] := by
  rw [tokensIn_append_separator _ _ (by decide), tokensIn_separated _ _ _ (by decide),
    tokensIn_plain_append start _ plain, Path.tokensIn_text spelled made,
    tokensIn_valueToken value]

theorem Predicate.tokensIn_text {predicate : Predicate} (spelled : predicate.IsSpelled)
    (made : Made predicate.tokens) : tokensIn kind predicate.text = predicate.tokens kind := by
  induction predicate with
  | compare path comparator operand =>
    obtain ⟨madePath, madeOperands⟩ := made.split
    have sign : isSeparator comparator.text.toList = true := by cases comparator <;> decide
    exact tokensIn_path_value comparator.text sign spelled.1 madePath
      (madeOperands operand List.mem_cons_self)
  | between path low high =>
    obtain ⟨madePath, madeOperands⟩ := made.split
    have lowValue := madeOperands low List.mem_cons_self
    have highValue := madeOperands high (List.mem_cons_of_mem _ List.mem_cons_self)
    have text : (Predicate.between path low high).text =
      path.text ++ " BETWEEN " ++ low ++ " AND " ++ high := rfl
    rw [text, tokensIn_separated _ _ _ (by decide),
      tokensIn_path_value " BETWEEN " (by decide) spelled.1 madePath lowValue,
      tokensIn_valueToken highValue]
    cases kind <;> simp [tokens, Predicate.path, operands]
  | oneOf path candidates =>
    obtain ⟨madePath, madeOperands⟩ := made.split
    have text : (Predicate.oneOf path candidates).text =
      path.text ++ " IN (" ++ ",".intercalate candidates ++ ")" := rfl
    have list : tokensIn kind (",".intercalate candidates) = kind.ifValue candidates :=
      tokensIn_operands (by decide) madeOperands
    rw [text, tokensIn_append_separator _ _ (by decide), tokensIn_separated _ _ _ (by decide),
      Path.tokensIn_text spelled.1 madePath, list]
    rfl
  | contains path operand =>
    obtain ⟨madePath, madeOperands⟩ := made.split
    exact tokensIn_call_path_value "contains(" (by decide) spelled.1 madePath
      (madeOperands operand List.mem_cons_self)
  | beginsWith path operand =>
    obtain ⟨madePath, madeOperands⟩ := made.split
    exact tokensIn_call_path_value "begins_with(" (by decide) spelled.1 madePath
      (madeOperands operand List.mem_cons_self)
  | present path =>
    have text : (Predicate.present path).text = "attribute_exists(" ++ path.text ++ ")" := rfl
    rw [text, tokensIn_call_path _ (by decide) spelled made.split.1]
    cases kind <;> simp [tokens, Predicate.path, operands]
  | absent path =>
    have text : (Predicate.absent path).text = "attribute_not_exists(" ++ path.text ++ ")" := rfl
    rw [text, tokensIn_call_path _ (by decide) spelled made.split.1]
    cases kind <;> simp [tokens, Predicate.path, operands]
  | not predicate ih =>
    have text : (Predicate.not predicate).text = "NOT " ++ predicate.text := rfl
    rw [text, tokensIn_plain_append "NOT " _ (by decide)]
    exact ih spelled made

namespace Condition

/-- The tokens of a condition from left to right. -/
def tokens (condition : Condition) (kind : TokenKind) : List Token :=
  condition.predicates.flatMap fun predicate => predicate.tokens kind

mutual

theorem tokensIn_text : ∀ condition : Condition,
    (∀ predicate ∈ condition.predicates, predicate.IsSpelled ∧ Made predicate.tokens) →
      tokensIn kind condition.text = condition.tokens kind
  | .test predicate, each => by
    obtain ⟨spelled, made⟩ := each predicate List.mem_cons_self
    rw [text, Predicate.tokensIn_text spelled made]
    simp [tokens, predicates]
  | .chain connective parts, each => by
    have separates : isSeparator connective.text.toList = true := by cases connective <;> decide
    rw [text, tokensIn_intercalate separates]
    exact tokensIn_texts parts each
  | .group condition, each => by
    rw [text, tokensIn_append_separator _ _ (by decide), tokensIn_plain_append "(" _ (by decide)]
    exact tokensIn_text condition each

theorem tokensIn_texts : ∀ parts : List Condition,
    (∀ predicate ∈ predicatesOf parts, predicate.IsSpelled ∧ Made predicate.tokens) →
      (texts parts).flatMap (tokensIn kind) =
        (predicatesOf parts).flatMap fun predicate => predicate.tokens kind
  | [], _ => rfl
  | part :: rest, each => by
    rw [predicatesOf] at each
    have head := tokensIn_text part fun predicate member =>
      each predicate (List.mem_append_left _ member)
    have others := tokensIn_texts rest fun predicate member =>
      each predicate (List.mem_append_right _ member)
    rw [texts, predicatesOf, List.flatMap_cons, List.flatMap_append, head, others, tokens]

end

end Condition

namespace Action

theorem tokensIn_orElse {path : Path} {operand : Token} (spelled : path.IsSpelled)
    (made : ∀ step ∈ path, IsNameToken step.name) (value : TokenKind.value.IsToken operand) :
    tokensIn kind (orElse path operand) = path.tokens kind ++ kind.ifValue [operand] :=
  tokensIn_call_path_value "if_not_exists(" (by decide) spelled made value

/-- An action names its path more than once where it falls back on something. -/
theorem mem_tokensIn_text {action : Action} {token : Token} (spelled : action.IsSpelled)
    (made : Made action.tokens) :
    token ∈ tokensIn kind action.text ↔ token ∈ action.tokens kind := by
  obtain ⟨madePath, madeOperands⟩ := made.split
  cases action with
  | assign path operand =>
    have text : (Action.assign path operand).text = path.text ++ "=" ++ operand := rfl
    rw [text, tokensIn_path_value "=" (by decide) spelled.1 madePath
      (madeOperands operand List.mem_cons_self)]
    rfl
  | assignIfMissing path operand =>
    have text : (Action.assignIfMissing path operand).text =
      path.text ++ "=" ++ orElse path operand := rfl
    rw [text, tokensIn_separated _ _ _ (by decide), Path.tokensIn_text spelled.1 madePath,
      tokensIn_orElse spelled.1 madePath (madeOperands operand List.mem_cons_self)]
    simp [tokens, Action.path, operands]
  | append path operand empty =>
    -- The path stands in the text twice, so the lists of tokens agree as sets only.
    have value := madeOperands operand List.mem_cons_self
    have emptyValue := madeOperands empty (List.mem_cons_of_mem _ List.mem_cons_self)
    have text : (Action.append path operand empty).text =
      path.text ++ "=list_append(" ++ orElse path empty ++ ", " ++ operand ++ ")" := rfl
    rw [text, tokensIn_append_separator _ _ (by decide), tokensIn_separated _ _ _ (by decide),
      tokensIn_separated _ _ _ (by decide), Path.tokensIn_text spelled.1 madePath,
      tokensIn_orElse spelled.1 madePath emptyValue, tokensIn_valueToken value]
    cases kind <;> simp [tokens, Action.path, operands, Path.tokens, or_comm]
  | prepend path operand empty =>
    have value := madeOperands operand List.mem_cons_self
    have emptyValue := madeOperands empty (List.mem_cons_of_mem _ List.mem_cons_self)
    have text : (Action.prepend path operand empty).text =
      path.text ++ "=list_append(" ++ operand ++ ", " ++ orElse path empty ++ ")" := rfl
    rw [text, tokensIn_append_separator _ _ (by decide), tokensIn_separated _ _ _ (by decide),
      tokensIn_separated _ _ _ (by decide), Path.tokensIn_text spelled.1 madePath,
      tokensIn_orElse spelled.1 madePath emptyValue, tokensIn_valueToken value]
    cases kind <;> simp [tokens, Action.path, operands, Path.tokens]
  | remove path =>
    have text : (Action.remove path).text = path.text := rfl
    rw [text, Path.tokensIn_text spelled madePath]
    cases kind <;> simp [tokens, Action.path, operands]
  | add path operand =>
    have text : (Action.add path operand).text = path.text ++ " " ++ operand := rfl
    rw [text, tokensIn_path_value " " (by decide) spelled.1 madePath
      (madeOperands operand List.mem_cons_self)]
    rfl
  | delete path operand =>
    have text : (Action.delete path operand).text = path.text ++ " " ++ operand := rfl
    rw [text, tokensIn_path_value " " (by decide) spelled.1 madePath
      (madeOperands operand List.mem_cons_self)]
    rfl

end Action

/-- Sorting into clauses loses no token and adds none. -/
theorem Update.mem_tokensIn_text {update : Update} {token : Token}
    (each : ∀ action ∈ update, action.IsSpelled ∧ Made action.tokens) :
    token ∈ tokensIn kind update.text ↔ ∃ action ∈ update, token ∈ action.tokens kind := by
  have clauseTokens (clause : Clause) (actions : List Action) :
      tokensIn kind (clause.keyword ++ " " ++ ", ".intercalate (actions.map Action.text)) =
        actions.flatMap fun action => tokensIn kind action.text := by
    rw [tokensIn_plain_append _ _ (by cases clause <;> decide), tokensIn_intercalate (by decide),
      List.flatMap_map]
  rw [text, clauseText?_eq, tokensIn_intercalate (by decide), List.flatMap_map]
  simp only [clauseTokens, List.mem_flatMap]
  constructor
  · rintro ⟨⟨clause, actions⟩, listed, action, inActions, inText⟩
    have inUpdate := ((mem_clauses listed).2 action inActions).1
    obtain ⟨spelled, made⟩ := each action inUpdate
    exact ⟨action, inUpdate, (Action.mem_tokensIn_text spelled made).mp inText⟩
  · rintro ⟨action, inUpdate, inTokens⟩
    obtain ⟨spelled, made⟩ := each action inUpdate
    -- An action is found in its own clause, which is not empty then.
    have inActions : action ∈ inClause update action.clause := by
      simp [inClause, inUpdate]
    have listed : (action.clause, inClause update action.clause) ∈ update.clauses := by
      refine List.mem_filter.mpr ⟨List.mem_map.mpr ⟨action.clause, ?_, rfl⟩, ?_⟩
      · cases action.clause <;> decide
      · simpa using List.ne_nil_of_mem inActions
    exact ⟨_, listed, action, inActions, (Action.mem_tokensIn_text spelled made).mpr inTokens⟩

theorem Projection.tokensIn_text {projection : Projection}
    (each : ∀ path ∈ projection, path.IsSpelled ∧ Made path.tokens) :
    tokensIn kind projection.text = projection.flatMap fun path => path.tokens kind := by
  rw [text, tokensIn_intercalate (by decide), List.flatMap_map]
  apply List.flatMap_congr
  intro path member
  obtain ⟨spelled, made⟩ := each path member
  apply Path.tokensIn_text spelled
  intro step stepIn
  exact made .name _ (List.mem_map_of_mem stepIn)

end Expressions

end DocQuery
