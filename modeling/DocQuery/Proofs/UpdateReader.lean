import DocQuery.Proofs.Spelling

/-!
# DocQuery.Proofs.UpdateReader

Updates as the store reads them from their text.

A keyword starts a clause. Commas part the actions of a clause, but not where they part the
arguments of a function, so the reader keeps count of the parentheses that are open.

## Main result

`readUpdate_text`: the text of an update is read as its actions sorted into clauses, each in its
order.
-/

namespace DocQuery

/-! ### Changes -/

/-- What is written to an attribute: a value, or what an attribute holds with a value to fall
back on. -/
inductive Operand (α : Type) where
  | value (value : α)
  | orElse (path : Path) (value : α)
deriving DecidableEq, Repr

/-- What an action does. -/
inductive Change (α : Type) where
  | assign (path : Path) (operand : Operand α)
  | concat (path : Path) (first second : Operand α)
  | remove (path : Path)
  | add (path : Path) (value : α)
  | delete (path : Path) (value : α)
deriving DecidableEq, Repr

namespace Change

variable {α : Type}

def clause : Change α → Clause
  | .assign .. | .concat .. => .set
  | .remove .. => .remove
  | .add .. => .add
  | .delete .. => .delete

def inClause (changes : List (Change α)) (clause : Clause) : List (Change α) :=
  changes.filter fun change => change.clause = clause

/-- The order in which clauses may stand. -/
def clauseOrder : List Clause := [.set, .remove, .add, .delete]

/-- Changes sorted into clauses, each in its order; a clause without changes is left out. -/
def sections (changes : List (Change α)) : List (Clause × List (Change α)) :=
  (clauseOrder.map fun clause => (clause, inClause changes clause)).filter (·.2 ≠ [])

end Change

/-! ### Reading -/

/-- How many parentheses are open after a lexeme. -/
def depthAfter (depth : Nat) : Lexeme → Nat
  | .opening => depth + 1
  | .closing => depth - 1
  | _ => depth

/-- Lexemes parted at the commas outside of parentheses; `depth` are open already. -/
def splitTop : Nat → List Lexeme → List (List Lexeme)
  | _, [] => [[]]
  | depth, lexeme :: rest =>
    if lexeme = .comma ∧ depth = 0 then [] :: splitTop 0 rest
    else (splitTop (depthAfter depth lexeme) rest).modifyHead (lexeme :: ·)

def operand? : List Lexeme → Option (Operand Token)
  | [.value token] => some (.value token)
  | [.call .orElse, .opening, .path path, .comma, .value token, .closing] =>
    some (.orElse path token)
  | _ => none

/-- What is written to a path. -/
def written? (path : Path) : List Lexeme → Option (Change Token)
  | .call .append :: .opening :: rest =>
    -- The last parenthesis closes the call.
    match rest.getLast?, splitTop 0 rest.dropLast with
    | some .closing, [first, second] => do
      return .concat path (← operand? first) (← operand? second)
    | _, _ => none
  | operand => (operand? operand).map (.assign path)

def change? : Clause → List Lexeme → Option (Change Token)
  | .set, .path path :: .sign .eq :: rest => written? path rest
  | .remove, [.path path] => some (.remove path)
  | .add, [.path path, .value token] => some (.add path token)
  | .delete, [.path path, .value token] => some (.delete path token)
  | _, _ => none

/-- The lexemes before the first keyword, and those behind each keyword. -/
def clauseBodies : List Lexeme → List Lexeme × List (Clause × List Lexeme)
  | [] => ([], [])
  | .clause clause :: rest => ([], (clause, (clauseBodies rest).1) :: (clauseBodies rest).2)
  | lexeme :: rest => (lexeme :: (clauseBodies rest).1, (clauseBodies rest).2)

/-- The clauses of a text with what their actions do. -/
def readUpdate (text : String) : Option (List (Clause × List (Change Token))) :=
  match clauseBodies (lex text.toList) with
  | ([], bodies) => bodies.mapM fun (clause, body) => do
    return (clause, ← (splitTop 0 body).mapM (change? clause))
  | _ => none

/-! ### Actions as lexemes -/

namespace Action

def path : Action → Path
  | .assign path .. | .assignIfMissing path .. | .append path .. | .prepend path .. | .remove path
  | .add path .. | .delete path .. => path

def operands : Action → List Token
  | .assign _ operand | .assignIfMissing _ operand | .add _ operand | .delete _ operand =>
    [operand]
  | .append _ operand empty | .prepend _ operand empty => [operand, empty]
  | .remove _ => []

/-- Its path and its operands are spelled in tokens. -/
def IsSpelled : Action → Prop
  | .assign path operand | .assignIfMissing path operand | .add path operand
  | .delete path operand => path.IsSpelled ∧ isValue operand.toList = true
  | .append path operand empty | .prepend path operand empty =>
    path.IsSpelled ∧ isValue operand.toList = true ∧ isValue empty.toList = true
  | .remove path => path.IsSpelled

theorem isSpelled_iff {action : Action} : action.IsSpelled ↔
    action.path.IsSpelled ∧ ∀ token ∈ action.operands, isValue token.toList = true := by
  cases action <;> simp [IsSpelled, path, operands]

def orElseLexemes (path : Path) (operand : Token) : List Lexeme :=
  [.call .orElse, .opening, .path path, .comma, .value operand, .closing]

def lexemes : Action → List Lexeme
  | .assign path operand => [.path path, .sign .eq, .value operand]
  | .assignIfMissing path operand => .path path :: .sign .eq :: orElseLexemes path operand
  | .append path operand empty =>
    .path path :: .sign .eq :: .call .append :: .opening ::
      (orElseLexemes path empty ++ [.comma, .value operand, .closing])
  | .prepend path operand empty =>
    .path path :: .sign .eq :: .call .append :: .opening :: .value operand :: .comma ::
      (orElseLexemes path empty ++ [.closing])
  | .remove path => [.path path]
  | .add path operand | .delete path operand => [.path path, .value operand]

/-- What an action does, with tokens for values. -/
def change : Action → Change Token
  | .assign path operand => .assign path (.value operand)
  | .assignIfMissing path operand => .assign path (.orElse path operand)
  | .append path operand empty => .concat path (.orElse path empty) (.value operand)
  | .prepend path operand empty => .concat path (.value operand) (.orElse path empty)
  | .remove path => .remove path
  | .add path operand => .add path operand
  | .delete path operand => .delete path operand

theorem clause_change (action : Action) : action.change.clause = action.clause := by
  cases action <;> rfl

theorem lex_orElse {path : Path} {operand : Token} (spelled : path.IsSpelled)
    (value : isValue operand.toList = true) :
    lex (orElse path operand).toList = orElseLexemes path operand :=
  lex_call_path_value .orElse spelled value

/-- A path that is assigned what a function gives. -/
theorem lex_assign_call {path : Path} (spelled : path.IsSpelled) (function : Function)
    (rest : List Char) :
    lex (path.text.toList ++ ("=".toList ++ function.name.toList) ++ '(' :: rest) =
      .path path :: .sign .eq :: .call function :: .opening :: lex rest := by
  -- The name is one word, so the sign cuts it off from the path.
  have name : IsWordOf function.name.toList (.call function) := by
    cases function <;> exact ⟨by decide, by decide, by decide⟩
  have assigned := lex_comparison_of_words .eq (isWordOf_path spelled) name
  rw [lex_append_opening, show "=".toList = Comparator.eq.text.toList from rfl, assigned]
  rfl

theorem lex_path_value {path : Path} {operand : Token} (spelled : path.IsSpelled)
    (value : isValue operand.toList = true) :
    lex (path.text ++ " " ++ operand).toList = [.path path, .value operand] := by
  have shape : (path.text ++ " " ++ operand).toList =
      path.text.toList ++ ' ' :: operand.toList := by simp
  rw [shape, lex_append_blank, (isWordOf_path spelled).lex, (isWordOf_value value).lex]
  rfl

theorem lex_text {action : Action} (spelled : action.IsSpelled) :
    lex action.text.toList = action.lexemes := by
  cases action with
  | assign path operand =>
    have assigned :=
      lex_comparison_of_words .eq (isWordOf_path spelled.1) (isWordOf_value spelled.2)
    have shape : (Action.assign path operand).text.toList =
        path.text.toList ++ (Comparator.eq.text.toList ++ operand.toList) := by
      change (path.text ++ "=" ++ operand).toList = _
      simp [Comparator.text]
    rw [shape, assigned]
    rfl
  | assignIfMissing path operand =>
    have shape : (Action.assignIfMissing path operand).text.toList =
        path.text.toList ++ ("=".toList ++ Function.orElse.name.toList) ++
          '(' :: (path.text.toList ++ (", ".toList ++ (operand.toList ++ ")".toList))) := by
      change (path.text ++ "=" ++
        ("if_not_exists(" ++ path.text ++ ", " ++ operand ++ ")")).toList = _
      simp [Function.name]
    rw [shape, lex_assign_call spelled.1, lex_separator, lex_append_end,
      (isWordOf_path spelled.1).lex, (isWordOf_value spelled.2).lex]
    rfl
  | append path operand empty =>
    -- The fallback comes before the operand, and after it when the list is prepended.
    obtain ⟨pathSpelled, value, emptyValue⟩ := spelled
    have shape : (Action.append path operand empty).text.toList =
        path.text.toList ++ ("=".toList ++ Function.append.name.toList) ++
          '(' :: ((orElse path empty).toList ++
            (", ".toList ++ (operand.toList ++ ")".toList))) := by
      change (path.text ++ "=list_append(" ++ orElse path empty ++ ", " ++ operand ++
        ")").toList = _
      simp [Function.name]
    rw [shape, lex_assign_call pathSpelled, lex_separator, lex_append_end,
      lex_orElse pathSpelled emptyValue, (isWordOf_value value).lex]
    rfl
  | prepend path operand empty =>
    obtain ⟨pathSpelled, value, emptyValue⟩ := spelled
    have shape : (Action.prepend path operand empty).text.toList =
        path.text.toList ++ ("=".toList ++ Function.append.name.toList) ++
          '(' :: (operand.toList ++
            (", ".toList ++ ((orElse path empty).toList ++ ")".toList))) := by
      change (path.text ++ "=list_append(" ++ operand ++ ", " ++ orElse path empty ++
        ")").toList = _
      simp [Function.name]
    rw [shape, lex_assign_call pathSpelled, lex_separator, lex_append_end,
      lex_orElse pathSpelled emptyValue, (isWordOf_value value).lex]
    rfl
  | remove path => exact (isWordOf_path spelled).lex
  | add path operand => exact lex_path_value spelled.1 spelled.2
  | delete path operand => exact lex_path_value spelled.1 spelled.2

/-! ### Reading actions -/

/-- An action holds no comma outside of its parentheses. -/
theorem splitTop_lexemes (action : Action) (rest : List Lexeme) :
    splitTop 0 (action.lexemes ++ rest) = (splitTop 0 rest).modifyHead (action.lexemes ++ ·) := by
  -- Every parenthesis that an action opens is closed by it, so the count is back at zero.
  cases action <;>
    simp [lexemes, orElseLexemes, splitTop, depthAfter, List.modifyHead_modifyHead,
      Function.comp_def]

theorem change?_lexemes (action : Action) :
    change? action.clause action.lexemes = some action.change := by
  cases action <;> rfl

theorem clauseBodies_lexemes (action : Action) (rest : List Lexeme) :
    clauseBodies (action.lexemes ++ rest) =
      (action.lexemes ++ (clauseBodies rest).1, (clauseBodies rest).2) := by
  cases action <;> rfl

end Action

/-! ### Reading updates -/

theorem lex_actions : ∀ {actions : List Action}, (∀ action ∈ actions, action.IsSpelled) →
    lex (", ".intercalate (actions.map Action.text)).toList =
      [.comma].intercalate (actions.map Action.lexemes)
  | [], _ => rfl
  | [action], spelled => by
    simpa using Action.lex_text (spelled action List.mem_cons_self)
  | action :: next :: others, spelled => by
    have head := Action.lex_text (spelled action List.mem_cons_self)
    have tail := lex_actions fun other member =>
      spelled other (List.mem_cons_of_mem action member)
    simp only [List.map_cons] at tail ⊢
    rw [String.intercalate_cons_cons, List.intercalate_cons_cons]
    simp only [String.toList_append, List.append_assoc]
    rw [lex_separator, head, tail]
    rfl

theorem splitTop_actions : ∀ {actions : List Action}, actions ≠ [] →
    splitTop 0 ([.comma].intercalate (actions.map Action.lexemes)) = actions.map Action.lexemes
  | [], nonempty => absurd rfl nonempty
  | [action], _ => by
    have alone := action.splitTop_lexemes []
    simpa [splitTop] using alone
  | action :: next :: others, _ => by
    have tail := splitTop_actions (List.cons_ne_nil next others)
    -- The first action is passed over as a whole, and the comma behind it is a top one.
    simp only [List.map_cons] at tail ⊢
    rw [List.intercalate_cons_cons, List.append_assoc, action.splitTop_lexemes,
      List.singleton_append, splitTop, tail]
    simp

theorem clauseBodies_actions (rest : List Lexeme) : ∀ actions : List Action,
    clauseBodies ([.comma].intercalate (actions.map Action.lexemes) ++ rest) =
      ([.comma].intercalate (actions.map Action.lexemes) ++ (clauseBodies rest).1,
        (clauseBodies rest).2)
  | [] => rfl
  | [action] => by simpa using action.clauseBodies_lexemes rest
  | action :: next :: others => by
    have tail := clauseBodies_actions rest (next :: others)
    simp only [List.map_cons] at tail ⊢
    rw [List.intercalate_cons_cons, List.append_assoc, List.append_assoc,
      action.clauseBodies_lexemes, List.singleton_append]
    simp [clauseBodies, tail]

/-- A clause with some actions, as its keyword and a body. -/
theorem lex_clause (clause : Clause) {actions : List Action}
    (spelled : ∀ action ∈ actions, action.IsSpelled) :
    lex (clause.keyword ++ " " ++ ", ".intercalate (actions.map Action.text)).toList =
      .clause clause :: [.comma].intercalate (actions.map Action.lexemes) := by
  have keyword : lex clause.keyword.toList = [.clause clause] := by cases clause <;> decide
  have shape : (clause.keyword ++ " " ++ ", ".intercalate (actions.map Action.text)).toList =
      clause.keyword.toList ++ ' ' :: (", ".intercalate (actions.map Action.text)).toList := by
    simp
  rw [shape, lex_append_blank, keyword, lex_actions spelled, List.singleton_append]

theorem lex_words : ∀ texts : List String,
    lex (" ".intercalate texts).toList = texts.flatMap fun text => lex text.toList
  | [] => rfl
  | [text] => by simp
  | text :: next :: others => by
    have tail := lex_words (next :: others)
    have shape : (" ".intercalate (text :: next :: others)).toList =
        text.toList ++ ' ' :: (" ".intercalate (next :: others)).toList := by
      simp [String.intercalate_cons_cons]
    rw [shape, lex_append_blank, tail]
    rfl

theorem clauseBodies_clauses (clauses : List (Clause × List Action)) :
    clauseBodies (clauses.flatMap fun (clause, actions) =>
        .clause clause :: [.comma].intercalate (actions.map Action.lexemes)) =
      ([], clauses.map fun (clause, actions) =>
        (clause, [.comma].intercalate (actions.map Action.lexemes))) := by
  induction clauses with
  | nil => rfl
  | cons first rest ih =>
    rw [List.flatMap_cons, List.cons_append, clauseBodies, clauseBodies_actions, ih]
    simp

namespace Update

/-- The clauses that have actions, with their actions. -/
def clauses (update : Update) : List (Clause × List Action) :=
  (Change.clauseOrder.map fun clause => (clause, inClause update clause)).filter (·.2 ≠ [])

theorem mem_clauses {update : Update} {clause : Clause} {actions : List Action}
    (member : (clause, actions) ∈ update.clauses) :
    actions ≠ [] ∧ ∀ action ∈ actions, action ∈ update ∧ action.clause = clause := by
  obtain ⟨listed, nonempty⟩ := List.mem_filter.mp member
  obtain ⟨other, -, same⟩ := List.mem_map.mp listed
  cases same
  refine ⟨by simpa using nonempty, fun action inActions => ?_⟩
  simpa [inClause] using inActions

theorem clauseText?_eq (update : Update) (clauses : List Clause) :
    clauses.filterMap (clauseText? update) =
      ((clauses.map fun clause => (clause, inClause update clause)).filter (·.2 ≠ [])).map
        fun (clause, actions) =>
          clause.keyword ++ " " ++ ", ".intercalate (actions.map Action.text) := by
  induction clauses with
  | nil => rfl
  | cons clause rest ih =>
    cases actions : inClause update clause with
    | nil => simp [clauseText?, actions, ih]
    | cons => simp [clauseText?, actions, ih]

theorem sections_change (update : Update) :
    Change.sections (update.map Action.change) =
      update.clauses.map fun (clause, actions) => (clause, actions.map Action.change) := by
  -- An action and its change belong to the same clause.
  have inClause_change (clause : Clause) :
      Change.inClause (update.map Action.change) clause =
        (update.inClause clause).map Action.change := by
    simp [Change.inClause, inClause, List.filter_map, Function.comp_def, Action.clause_change]
  simp only [Change.sections, clauses, inClause_change, List.filter_map, List.map_map]
  simp [Function.comp_def]

end Update

theorem mapM_eq_some_map {α β : Type} {read : α → Option β} {result : α → β} {items : List α}
    (each : ∀ item ∈ items, read item = some (result item)) :
    items.mapM read = some (items.map result) := by
  induction items with
  | nil => rfl
  | cons item rest ih =>
    obtain ⟨head, tail⟩ := List.forall_mem_cons.mp each
    simp [head, ih tail]

/-- A clause is read as what its actions do. -/
theorem changes_clause {clause : Clause} {actions : List Action} (nonempty : actions ≠ [])
    (inClause : ∀ action ∈ actions, action.clause = clause) :
    (splitTop 0 ([.comma].intercalate (actions.map Action.lexemes))).mapM (change? clause) =
      some (actions.map Action.change) := by
  rw [splitTop_actions nonempty, List.mapM_map]
  apply mapM_eq_some_map
  intro action member
  have read := action.change?_lexemes
  rwa [inClause action member] at read

/-- The text of an update is read as its actions sorted into clauses, each in its order. -/
theorem readUpdate_text {update : Update} (spelled : ∀ action ∈ update, action.IsSpelled) :
    readUpdate update.text = some (Change.sections (update.map Action.change)) := by
  have lexed : lex update.text.toList = update.clauses.flatMap fun (clause, actions) =>
      .clause clause :: [.comma].intercalate (actions.map Action.lexemes) := by
    have inOrder : Clause.all = Change.clauseOrder := rfl
    rw [Update.text, inOrder, Update.clauseText?_eq, lex_words, List.flatMap_map]
    apply List.flatMap_congr
    rintro ⟨clause, actions⟩ member
    -- The actions of a clause are actions of the update, so they are spelled in tokens.
    have own := (Update.mem_clauses member).2
    exact lex_clause clause fun action inActions => spelled action (own action inActions).1
  rw [readUpdate, lexed, clauseBodies_clauses, Update.sections_change]
  -- Nothing stands before the first keyword; each clause is read by itself.
  dsimp only
  rw [List.mapM_map]
  apply mapM_eq_some_map
  rintro ⟨clause, actions⟩ member
  obtain ⟨nonempty, own⟩ := Update.mem_clauses member
  have read := changes_clause nonempty fun action inActions => (own action inActions).2
  simp [read]

example : readUpdate "SET #k_a=list_append(if_not_exists(#k_a, :v_b), :v_a) ADD #k_b :v_b" =
    some [(.set, [.concat [⟨"#k_a", ""⟩] (.orElse [⟨"#k_a", ""⟩] ":v_b") (.value ":v_a")]),
      (.add, [.add [⟨"#k_b", ""⟩] ":v_b"])] := by
  decide +kernel

end DocQuery
