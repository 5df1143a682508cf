import DocQuery.Proofs.Acceptance
import DocQuery.Proofs.Vocabulary

/-!
# DocQuery.Proofs.QueryLanguage

Which documents are queries, and what is reported of the others.

The grammar is given twice over: what is accepted (`Query.IsQuery` and its parts), and what is the
first place in document order that is not (`Query.FirstFault` and its parts), where everything in
front of that place is accepted and nothing is said of what comes behind.

## Main result

`compileCondition_reports_first_fault`: queries are compiled, and of any other document the first
fault is reported, whatever is registered.
-/

namespace DocQuery

open Compile

/-! ### Operators -/

namespace Operator

/-- The operands that an operator can be applied to. -/
inductive Takes : Operator → Document → Prop
  | two (low high : Document) : Takes .between (.array [low, high])
  | choice {operator : Operator} (isChoice : operator = .oneOf ∨ operator = .noneOf)
      (first : Document) (others : List Document) : Takes operator (.array (first :: others))
  | any {operator : Operator} (free : operator ∉ [.between, .oneOf, .noneOf])
      (operand : Document) : Takes operator operand

/-- What is reported of other operands. -/
inductive Refuses (path : String) : Operator → Document → CompileError → Prop
  | bounds {operand : Document} (notTwo : ∀ low high, operand ≠ .array [low, high]) :
      Refuses path .between operand (.invalidQuery (.bounds path))
  | candidates {operator : Operator} {operand : Document}
      (isChoice : operator = .oneOf ∨ operator = .noneOf)
      (noChoice : ∀ first others, operand ≠ .array (first :: others)) :
      Refuses path operator operand (.invalidQuery (.candidates path))

section Operands

variable {path : String} {operator : Operator} {operand : Document} {error : CompileError}

theorem takes_between_iff : Takes .between operand ↔ ∃ low high, operand = .array [low, high] := by
  constructor
  · intro takes
    cases takes with
    | two low high => exact ⟨low, high, rfl⟩
    | choice isChoice => simp at isChoice
    | any free => simp at free
  · rintro ⟨low, high, rfl⟩
    exact .two low high

theorem refuses_between_iff : Refuses path .between operand error ↔
    (∀ low high, operand ≠ .array [low, high]) ∧ .invalidQuery (.bounds path) = error := by
  constructor
  · intro refuses
    cases refuses with
    | bounds notTwo => exact ⟨notTwo, rfl⟩
    | candidates isChoice => simp at isChoice
  · rintro ⟨notTwo, rfl⟩
    exact .bounds notTwo

theorem takes_choice_iff (isChoice : operator = .oneOf ∨ operator = .noneOf) :
    operator.Takes operand ↔ ∃ first others, operand = .array (first :: others) := by
  constructor
  · intro takes
    cases takes with
    | two => simp at isChoice
    | choice _ first others => exact ⟨first, others, rfl⟩
    | any free => rcases isChoice with rfl | rfl <;> simp at free
  · rintro ⟨first, others, rfl⟩
    exact .choice isChoice first others

theorem refuses_choice_iff (isChoice : operator = .oneOf ∨ operator = .noneOf) :
    operator.Refuses path operand error ↔
      (∀ first others, operand ≠ .array (first :: others)) ∧
        .invalidQuery (.candidates path) = error := by
  constructor
  · intro refuses
    cases refuses with
    | bounds => simp at isChoice
    | candidates _ noChoice => exact ⟨noChoice, rfl⟩
  · rintro ⟨noChoice, rfl⟩
    exact .candidates isChoice noChoice

theorem not_refuses_of_free (free : operator ∉ [.between, .oneOf, .noneOf]) :
    ¬ operator.Refuses path operand error := by
  intro refuses
  cases refuses with
  | bounds => simp at free
  | candidates isChoice => rcases isChoice with rfl | rfl <;> simp at free

end Operands

end Operator

/-! ### The language -/

namespace Query

/-- An object whose only key is an operator key is meant as an operator document. -/
def IsOperatorDocument (value : Document) : Prop :=
  ∃ key operand, value = .object [(key, operand)] ∧ BeginsWithDollar key

/-- The values that ask for a predicate. -/
inductive IsPredicate : Document → Prop
  | literal {value : Document} (isLiteral : ¬ IsOperatorDocument value) : IsPredicate value
  | operator {key : String} {operator : Operator} {operand : Document}
      (isKey : key = operator.key) (takes : operator.Takes operand) :
      IsPredicate (.object [(key, operand)])
  | not {operand : Document} (isPredicate : IsPredicate operand) :
      IsPredicate (.object [("$not", operand)])

mutual

inductive IsQuery : Document → Prop
  | object {fields : Fields} (each : ∀ field ∈ fields, IsField field.1 field.2) :
      IsQuery (.object fields)

/-- The fields of a query: a chain of queries under its connective, or a predicate on a path. -/
inductive IsField : String → Document → Prop
  | chain {key : String} {connective : Connective} {members : List Document}
      (isKey : key = connective.key) (nonempty : members ≠ [])
      (each : ∀ member ∈ members, IsQuery member) : IsField key (.array members)
  | question {path : String} {value : Document} (isPath : ¬ BeginsWithDollar path)
      (isPredicate : IsPredicate value) : IsField path value

end

/-- The fault of a value that asks for no predicate: an unknown operator, or an operand that the
innermost operator does not take. -/
inductive PredicateFault (path : String) : Document → CompileError → Prop
  | unknown {key : String} {operand : Document} (isOperator : BeginsWithDollar key)
      (notNot : key ≠ "$not") (unknown : ∀ operator : Operator, key ≠ operator.key) :
      PredicateFault path (.object [(key, operand)]) (.unknownOperator key)
  | operand {key : String} {operator : Operator} {operand : Document} {error : CompileError}
      (isKey : key = operator.key) (refuses : operator.Refuses path operand error) :
      PredicateFault path (.object [(key, operand)]) error
  | not {operand : Document} {error : CompileError} (fault : PredicateFault path operand error) :
      PredicateFault path (.object [("$not", operand)]) error

mutual

/-- The first fault of a document. What is no object at all is refused in words that depend on
where the document stands. -/
inductive FirstFault : QueryFault → Document → CompileError → Prop
  | notObject {refusal : QueryFault} {document : Document}
      (notObject : ∀ fields, document ≠ .object fields) :
      FirstFault refusal document (.invalidQuery refusal)
  | field {refusal : QueryFault} {before after : Fields} {key : String} {value : Document}
      {error : CompileError} (earlier : ∀ field ∈ before, IsField field.1 field.2)
      (fault : FieldFault key value error) :
      FirstFault refusal (.object (before ++ (key, value) :: after)) error

/-- The first fault of a field: the field as a whole, the first member of its chain that is no
query, or its predicate. -/
inductive FieldFault : String → Document → CompileError → Prop
  | unknown {key : String} {value : Document} (isOperator : BeginsWithDollar key)
      (unknown : ∀ connective : Connective, key ≠ connective.key) :
      FieldFault key value (.unknownOperator key)
  | notArray {key : String} {connective : Connective} {value : Document}
      (isKey : key = connective.key) (notArray : ∀ members, value ≠ .array members) :
      FieldFault key value (.invalidQuery (.membersNotArray connective))
  | noMembers {key : String} {connective : Connective} (isKey : key = connective.key) :
      FieldFault key (.array []) (.invalidQuery (.noMembers connective))
  | member {key : String} {connective : Connective} {before after : List Document}
      {member : Document} {error : CompileError} (isKey : key = connective.key)
      (earlier : ∀ member ∈ before, IsQuery member)
      (fault : FirstFault (.memberNotDocument connective) member error) :
      FieldFault key (.array (before ++ member :: after)) error
  | predicate {path : String} {value : Document} {error : CompileError}
      (isPath : ¬ BeginsWithDollar path) (fault : PredicateFault path value error) :
      FieldFault path value error

end

/-! ### Predicates -/

section Predicates

variable {path key : String} {value operand : Document} {operator : Operator}
  {error : CompileError}

theorem isPredicate_operator_iff (isKey : key = operator.key) :
    IsPredicate (.object [(key, operand)]) ↔ operator.Takes operand := by
  constructor
  · intro isPredicate
    cases isPredicate with
    | literal isLiteral =>
      exact absurd ⟨key, operand, rfl, isKey ▸ operator.beginsWithDollar_key⟩ isLiteral
    | operator isKeyToo takes =>
      rwa [Operator.key_injective (isKey.symm.trans isKeyToo)]
    | not => exact absurd isKey.symm operator.key_ne_not
  · exact fun takes => .operator isKey takes

theorem predicateFault_operator_iff (isKey : key = operator.key) :
    PredicateFault path (.object [(key, operand)]) error ↔ operator.Refuses path operand error := by
  constructor
  · intro fault
    cases fault with
    | unknown _ _ unknown => exact absurd isKey (unknown operator)
    | operand isKeyToo refuses =>
      rwa [Operator.key_injective (isKey.symm.trans isKeyToo)]
    | not => exact absurd isKey.symm operator.key_ne_not
  · exact fun refuses => .operand isKey refuses

theorem isPredicate_not_iff :
    IsPredicate (.object [("$not", operand)]) ↔ IsPredicate operand := by
  constructor
  · intro isPredicate
    cases isPredicate with
    | literal isLiteral => exact absurd ⟨_, operand, rfl, by decide⟩ isLiteral
    | operator isKey => exact absurd isKey.symm (Operator.key_ne_not _)
    | not isPredicate => exact isPredicate
  · exact .not

theorem predicateFault_not_iff :
    PredicateFault path (.object [("$not", operand)]) error ↔
      PredicateFault path operand error := by
  constructor
  · intro fault
    cases fault with
    | unknown _ notNot => exact absurd rfl notNot
    | operand isKey => exact absurd isKey.symm (Operator.key_ne_not _)
    | not fault => exact fault
  · exact .not

/-- Only operator documents can be wrong. -/
theorem not_predicateFault_of_literal (isLiteral : ¬ IsOperatorDocument value) :
    ¬ PredicateFault path value error := by
  intro fault
  apply isLiteral
  cases fault with
  | unknown isOperator => exact ⟨_, _, rfl, isOperator⟩
  | operand isKey => exact ⟨_, _, rfl, isKey ▸ Operator.beginsWithDollar_key _⟩
  | not => exact ⟨_, _, rfl, by decide⟩

theorem checks_compileCandidates {name : Path}
    (isChoice : operator = .oneOf ∨ operator = .noneOf) :
    (compileCandidates path name operand).Checks (operator.Takes operand)
      (operator.Refuses path operand) := by
  unfold compileCandidates
  split
  next =>
    refine .refuse ?_ fun _ => ?_
    · simp [Operator.takes_choice_iff isChoice]
    · simp [Operator.refuses_choice_iff isChoice]
  next candidates nonempty =>
    obtain ⟨first, others, rfl⟩ := List.exists_cons_of_ne_nil nonempty
    refine .accept (.naming fun _ => .pure _) (.choice isChoice first others) fun _ => ?_
    simp [Operator.refuses_choice_iff isChoice]
  next notArray =>
    have noChoice : ∀ first others, operand ≠ .array (first :: others) :=
      fun first others => notArray (first :: others)
    refine .refuse ?_ fun _ => ?_
    · simpa [Operator.takes_choice_iff isChoice] using noChoice
    · rw [Operator.refuses_choice_iff isChoice, and_iff_right noChoice]

theorem checks_compileOperator (path : String) (name : Path) (operand : Document)
    (operator : Operator) : (compileOperator path name operand operator).Checks
      (operator.Takes operand) (operator.Refuses path operand) := by
  cases operator with
  | compare | contains | beginsWith =>
    exact .accept (.naming fun _ => .pure _) (.any (by simp) operand) fun _ =>
      Operator.not_refuses_of_free (by simp)
  | exist =>
    exact .accept (.pure _) (.any (by simp) operand) fun _ =>
      Operator.not_refuses_of_free (by simp)
  | between =>
    unfold compileOperator
    dsimp only
    split
    next low high =>
      refine .accept (.naming fun _ => .naming fun _ => .pure _) (.two low high) fun _ => ?_
      exact fun refuses => Operator.refuses_between_iff.mp refuses |>.1 low high rfl
    next notTwo =>
      refine .refuse (fun takes => ?_) fun _ => ?_
      · obtain ⟨low, high, rfl⟩ := Operator.takes_between_iff.mp takes
        exact notTwo low high rfl
      · rw [Operator.refuses_between_iff, and_iff_right notTwo]
  | oneOf => exact checks_compileCandidates (.inl rfl)
  | noneOf => exact (checks_compileCandidates (.inr rfl)).map

/-- Whether a value asks for a predicate depends neither on its path nor on what is registered. -/
theorem checks_compilePredicate (path : String) (name : Path) (value : Document) :
    (compilePredicate path name value).Checks (IsPredicate value) (PredicateFault path value) := by
  induction value using compilePredicate.induct with
  | case1 operand ih =>
    rw [compilePredicate, if_pos rfl]
    exact ih.map.congr isPredicate_not_iff.symm fun _ => predicateFault_not_iff.symm
  | case2 key operand notNot isOperator operator known =>
    have isKey := Operator.ofKey?_eq_some_iff.mp known
    rw [compilePredicate, if_neg notNot, if_pos isOperator, known]
    exact (checks_compileOperator path name operand operator).congr
      (isPredicate_operator_iff isKey).symm fun _ => (predicateFault_operator_iff isKey).symm
  | case3 key operand notNot isOperator unknown =>
    have noOperator : ∀ operator : Operator, key ≠ operator.key :=
      ne_key_of_read_eq_none (fun _ _ => Operator.ofKey?_eq_some_iff) unknown
    rw [compilePredicate, if_neg notNot, if_pos isOperator, unknown]
    rw [isOperatorKey_iff] at isOperator
    refine .refuse (fun isPredicate => ?_) fun other => ?_
    · cases isPredicate with
      | literal isLiteral => exact isLiteral ⟨key, operand, rfl, isOperator⟩
      | operator isKey => exact noOperator _ isKey
      | not => exact notNot rfl
    · constructor
      · rintro rfl
        exact .unknown isOperator notNot noOperator
      · intro fault
        cases fault with
        | unknown => rfl
        | operand isKey => exact absurd isKey (noOperator _)
        | not => exact absurd rfl notNot
  | case4 key operand notNot notOperator =>
    rw [compilePredicate, if_neg notNot, if_neg notOperator]
    have isLiteral : ¬ IsOperatorDocument (.object [(key, operand)]) := by
      rintro ⟨_, _, ⟨⟩, isOperator⟩
      exact notOperator (isOperatorKey_iff.mpr isOperator)
    exact .accept (.naming fun _ => .pure _) (.literal isLiteral) fun _ =>
      not_predicateFault_of_literal isLiteral
  | case5 literal other =>
    rw [compilePredicate.eq_2 _ _ _ other]
    have isLiteral : ¬ IsOperatorDocument literal := by
      rintro ⟨key, operand, rfl, -⟩
      exact other key operand rfl
    exact .accept (.naming fun _ => .pure _) (.literal isLiteral) fun _ =>
      not_predicateFault_of_literal isLiteral

end Predicates

/-! ### Documents -/

section Documents

variable {key : String} {value document : Document} {fields : Fields} {members : List Document}
  {connective : Connective} {refusal : QueryFault} {error : CompileError}

theorem isQuery_iff :
    IsQuery document ↔ document.IsObjectOf fun field => IsField field.1 field.2 := by
  constructor
  · rintro ⟨each⟩
    exact ⟨_, rfl, each⟩
  · rintro ⟨fields, rfl, each⟩
    exact .object each

theorem firstFault_iff : FirstFault refusal document error ↔
    document.ObjectFault (.invalidQuery refusal) (fun field => IsField field.1 field.2)
      (fun field => FieldFault field.1 field.2) error := by
  constructor
  · rintro (notObject | ⟨earlier, fault⟩)
    · exact .notObject notObject
    · exact .field ⟨_, _, _, rfl, earlier, fault⟩
  · rintro (notObject | ⟨before, field, after, rfl, earlier, fault⟩)
    · exact .notObject notObject
    · exact .field earlier fault

theorem isField_chain_iff (isKey : key = connective.key) : IsField key value ↔
    ∃ members, value = .array members ∧ members ≠ [] ∧ ∀ member ∈ members, IsQuery member := by
  constructor
  · intro isField
    cases isField with
    | chain _ nonempty each => exact ⟨_, rfl, nonempty, each⟩
    | question isPath => exact absurd (isKey ▸ connective.beginsWithDollar_key) isPath
  · rintro ⟨members, rfl, nonempty, each⟩
    exact .chain isKey nonempty each

theorem fieldFault_chain_iff (isKey : key = connective.key) : FieldFault key value error ↔
    (∀ members, value ≠ .array members) ∧ .invalidQuery (.membersNotArray connective) = error ∨
      value = .array [] ∧ .invalidQuery (.noMembers connective) = error ∨
      ∃ members, value = .array members ∧
        FirstAmong IsQuery (FirstFault (.memberNotDocument connective)) members error := by
  constructor
  · intro fault
    cases fault with
    | unknown _ unknown => exact absurd isKey (unknown connective)
    | notArray isKeyToo notArray =>
      obtain rfl := Connective.key_injective (isKey.symm.trans isKeyToo)
      exact .inl ⟨notArray, rfl⟩
    | noMembers isKeyToo =>
      obtain rfl := Connective.key_injective (isKey.symm.trans isKeyToo)
      exact .inr (.inl ⟨rfl, rfl⟩)
    | member isKeyToo earlier fault =>
      obtain rfl := Connective.key_injective (isKey.symm.trans isKeyToo)
      exact .inr (.inr ⟨_, rfl, _, _, _, rfl, earlier, fault⟩)
    | predicate isPath => exact absurd (isKey ▸ connective.beginsWithDollar_key) isPath
  · rintro (⟨notArray, rfl⟩ | ⟨rfl, rfl⟩ | ⟨_, rfl, before, member, after, rfl, earlier, fault⟩)
    · exact .notArray isKey notArray
    · exact .noMembers isKey
    · exact .member isKey earlier fault

theorem not_isField_of_unknown (isOperator : BeginsWithDollar key)
    (unknown : ∀ connective : Connective, key ≠ connective.key) : ¬ IsField key value := by
  intro isField
  cases isField with
  | chain isKey => exact unknown _ isKey
  | question isPath => exact isPath isOperator

theorem fieldFault_unknown_iff (isOperator : BeginsWithDollar key)
    (unknown : ∀ connective : Connective, key ≠ connective.key) :
    FieldFault key value error ↔ .unknownOperator key = error := by
  constructor
  · intro fault
    cases fault with
    | unknown => rfl
    | notArray isKey | noMembers isKey | member isKey => exact absurd isKey (unknown _)
    | predicate isPath => exact absurd isOperator isPath
  · rintro rfl
    exact .unknown isOperator unknown

theorem isField_question_iff (isPath : ¬ BeginsWithDollar key) :
    IsField key value ↔ IsPredicate value := by
  constructor
  · intro isField
    cases isField with
    | chain isKey => exact absurd (isKey ▸ Connective.beginsWithDollar_key _) isPath
    | question _ isPredicate => exact isPredicate
  · exact .question isPath

theorem fieldFault_question_iff (isPath : ¬ BeginsWithDollar key) :
    FieldFault key value error ↔ PredicateFault key value error := by
  constructor
  · intro fault
    cases fault with
    | unknown isOperator => exact absurd isOperator isPath
    | notArray isKey | noMembers isKey | member isKey =>
      exact absurd (isKey ▸ Connective.beginsWithDollar_key _) isPath
    | predicate _ fault => exact fault
  · exact .predicate isPath

end Documents

mutual

theorem checks_compileFields (siblings : Bool) : ∀ fields : Fields,
    (compileFields siblings fields).Checks (∀ field ∈ fields, IsField field.1 field.2)
      (FirstAmong (fun field => IsField field.1 field.2) (fun field => FieldFault field.1 field.2)
        fields)
  | [] => by
    rw [compileFields]
    exact .nil _
  | (key, value) :: rest => by
    rw [compileFields]
    exact .cons (checks_compileField key value) fun _ => (checks_compileFields siblings rest).map

theorem checks_compileField : ∀ (key : String) (value : Document),
    (compileField key value).Checks (IsField key value) (FieldFault key value)
  | key, value => by
    unfold compileField
    split
    next connective known =>
      have isKey := Connective.ofKey?_eq_some_iff.mp known
      split
      next =>
        refine .refuse ?_ fun _ => ?_
        · simp [isField_chain_iff isKey]
        · simp [fieldFault_chain_iff isKey, not_firstAmong_nil]
      next members nonempty =>
        have nonempty : members ≠ [] := nonempty
        refine (checks_compileMembers connective members).map.congr ?_ fun _ => ?_
        · simp [isField_chain_iff isKey, nonempty]
        · simp [fieldFault_chain_iff isKey, nonempty]
      next notArray =>
        have notArray : ∀ members, value ≠ .array members := notArray
        refine .refuse ?_ fun _ => ?_
        · simp [isField_chain_iff isKey, notArray]
        · simp [fieldFault_chain_iff isKey, notArray]
    next noConnective =>
      split
      next isOperator =>
        rw [isOperatorKey_iff] at isOperator
        have unknown : ∀ connective : Connective, key ≠ connective.key :=
          ne_key_of_read_eq_none (fun _ _ => Connective.ofKey?_eq_some_iff) noConnective
        exact .refuse (not_isField_of_unknown isOperator unknown) fun _ =>
          (fieldFault_unknown_iff isOperator unknown).symm
      next notOperator =>
        have isPath := isOperatorKey_iff.not.mp notOperator
        refine .naming fun name => ?_
        exact (checks_compilePredicate key name value).map.congr (isField_question_iff isPath).symm
          fun _ => (fieldFault_question_iff isPath).symm

theorem checks_compileMembers (connective : Connective) : ∀ members : List Document,
    (compileMembers connective members).Checks (∀ member ∈ members, IsQuery member)
      (FirstAmong IsQuery (FirstFault (.memberNotDocument connective)) members)
  | [] => by
    rw [compileMembers]
    exact .nil _
  | member :: rest => by
    cases member with
    | object fields =>
      rw [compileMembers]
      refine .cons ?_ fun _ => (checks_compileMembers connective rest).map
      exact (Document.checks_of_object (checks_compileFields _ fields)).congr isQuery_iff.symm
        fun _ => firstFault_iff.symm
    | _ =>
      refine .cons_refuse rest (fun isQuery => ?_) fun _ => ?_
      · exact Document.not_isObjectOf (by simp) (isQuery_iff.mp isQuery)
      · rw [firstFault_iff, Document.objectFault_iff_of_not_object (by simp)]

end

theorem checks_compileCondition (query : Document) :
    (compileCondition query).Checks (IsQuery query) (FirstFault .notDocument query) := by
  cases query with
  | object fields =>
    exact (Document.checks_of_object (checks_compileFields _ fields).map).congr isQuery_iff.symm
      fun _ => firstFault_iff.symm
  | _ =>
    refine .refuse (fun isQuery => ?_) fun _ => ?_
    · exact Document.not_isObjectOf (by simp) (isQuery_iff.mp isQuery)
    · rw [firstFault_iff, Document.objectFault_iff_of_not_object (by simp)]

end Query

/-- `$eq` takes any operand and compares with it as it is, even with an operator document. -/
theorem compilePredicate_eq (path : String) (name : Path) (operand : Document) (p : Placeholders) :
    ∃ token q, (compilePredicate path name (.object [("$eq", operand)])).runFrom p =
        (.ok (.compare name .eq token), q) ∧
      q.values.get? token = some (.ofDocument operand) :=
  ⟨(Naming.bindDocument path operand p).1, (Naming.bindDocument path operand p).2, rfl,
    Naming.bindDocument_bound path operand p le_rfl⟩

/-- A document is compiled just if it is a query. Of any other document the first fault in document
order is reported. Neither depends on what is registered. The operand of `$eq` is never looked
into. -/
theorem compileCondition_reports_first_fault (query : Document) (p : Placeholders) :
    ((∃ condition, ((compileCondition query).runFrom p).1 = .ok condition) ↔
      Query.IsQuery query) ∧
    (∀ error, ((compileCondition query).runFrom p).1 = .error error ↔
      Query.FirstFault .notDocument query error) ∧
    ∀ (path : String) (name : Path) (operand : Document), ∃ token q,
      (compilePredicate path name (.object [("$eq", operand)])).runFrom p =
        (.ok (.compare name .eq token), q) ∧
      q.values.get? token = some (.ofDocument operand) := by
  have judged := Query.checks_compileCondition query p
  exact ⟨judged.ok_iff, judged.error_iff, fun path name operand =>
    compilePredicate_eq path name operand p⟩

/-- An unknown operator below `$not` in the second member of a chain, and faults behind it. -/
example :
    let query : Document := .object [
      ("$or", .array [
        .object [("a", .object [("$eq", .object [("$gt", .null)])])],
        .object [("b", .object [("$not", .object [("$and", .array [])])]), ("$gt", .null)],
        .null]),
      ("c", .object [("$in", .array [])])]
    ((compileCondition query).runFrom {}).1 = .error (.unknownOperator "$and") := by
  rfl

end DocQuery
