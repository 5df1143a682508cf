import DocQuery.Proofs.Spelling

/-!
# DocQuery.Proofs.ConditionReader

Conditions as the store reads them from their text.

Comparisons, `BETWEEN` with its bounds, `IN` with its candidates and calls of functions bind
tightest; then `NOT`, then `AND`, then `OR`. Parentheses override all of them. The reader first
gathers the lexemes of each test into a mark, then reads the marks from left to right with one
level of pending operands for each open parenthesis.

## Main result

`readCondition_text`: the text of a condition in which no bare chain of alternatives stands in a
conjunction is read as a formula with the same tests and the same truth.
-/

namespace DocQuery

/-! ### Formulas -/

/-- A condition as it is read. -/
inductive Formula (α : Type) where
  | test (atom : α)
  | not (formula : Formula α)
  | and (first second : Formula α)
  | or (first second : Formula α)
deriving DecidableEq, Repr

namespace Formula

variable {α : Type}

/-- The tests from left to right. -/
def tests : Formula α → List α
  | .test atom => [atom]
  | .not formula => formula.tests
  | .and first second | .or first second => first.tests ++ second.tests

/-- Whether a formula holds, given which tests do. -/
def holds (truth : α → Bool) : Formula α → Bool
  | .test atom => truth atom
  | .not formula => !formula.holds truth
  | .and first second => first.holds truth && second.holds truth
  | .or first second => first.holds truth || second.holds truth

/-- Negated as often as is said. -/
def negate : Nat → Formula α → Formula α
  | 0, formula => formula
  | times + 1, formula => .not (negate times formula)

/-- A conjunction with what stands before, if anything does. -/
def andAfter : Option (Formula α) → Formula α → Formula α
  | none, formula => formula
  | some before, formula => .and before formula

/-- An alternative to what stands before, if anything does. -/
def orAfter : Option (Formula α) → Formula α → Formula α
  | none, formula => formula
  | some before, formula => .or before formula

end Formula

/-! ### Marks -/

/-- What the connectives of a condition see. -/
inductive Mark where
  | test (predicate : Predicate)
  | not
  | and
  | or
  | opening
  | closing
deriving DecidableEq, Repr

mutual

/-- Gather the lexemes of each test. -/
def marks? : List Lexeme → Option (List Mark)
  | [] => some []
  | .not :: rest => (marks? rest).map (.not :: ·)
  | .and :: rest => (marks? rest).map (.and :: ·)
  | .or :: rest => (marks? rest).map (.or :: ·)
  | .opening :: rest => (marks? rest).map (.opening :: ·)
  | .closing :: rest => (marks? rest).map (.closing :: ·)
  | .path path :: .sign comparator :: .value operand :: rest =>
    (marks? rest).map (.test (.compare path comparator operand) :: ·)
  | .path path :: .between :: .value low :: .and :: .value high :: rest =>
    (marks? rest).map (.test (.between path low high) :: ·)
  | .path path :: .oneOf :: .opening :: .value candidate :: rest =>
    candidates? path [candidate] rest
  | .call .contains :: .opening :: .path path :: .comma :: .value operand :: .closing :: rest =>
    (marks? rest).map (.test (.contains path operand) :: ·)
  | .call .beginsWith :: .opening :: .path path :: .comma :: .value operand :: .closing :: rest =>
    (marks? rest).map (.test (.beginsWith path operand) :: ·)
  | .call .present :: .opening :: .path path :: .closing :: rest =>
    (marks? rest).map (.test (.present path) :: ·)
  | .call .absent :: .opening :: .path path :: .closing :: rest =>
    (marks? rest).map (.test (.absent path) :: ·)
  | _ => none

/-- Gather the candidates behind those that were gathered already. -/
def candidates? (path : Path) (gathered : List Token) : List Lexeme → Option (List Mark)
  | .comma :: .value candidate :: rest => candidates? path (gathered ++ [candidate]) rest
  | .closing :: rest => (marks? rest).map (.test (.oneOf path gathered) :: ·)
  | _ => none

end

/-! ### Reading marks -/

/-- What is pending inside an open parenthesis: the alternatives before the current one, the
current one as far as it was read, and how often the next operand is negated. -/
structure Level where
  any : Option (Formula Predicate) := none
  all : Option (Formula Predicate) := none
  negations : Nat := 0

/-- A condition that was read up to some mark. -/
inductive Reading where
  /-- An operand has to follow. -/
  | open (outer : List Level) (level : Level)
  /-- The current alternative is `all` unless it goes on. -/
  | closed (outer : List Level) (any : Option (Formula Predicate)) (all : Formula Predicate)

namespace Reading

/-- An operand is negated first, then becomes part of the current alternative. -/
def operand (outer : List Level) (level : Level) (formula : Formula Predicate) : Reading :=
  .closed outer level.any (.andAfter level.all (formula.negate level.negations))

/-- Read one mark. -/
def step : Reading → Mark → Option Reading
  | .open outer level, .test predicate => some (operand outer level (.test predicate))
  | .open outer level, .not =>
    some (.open outer { level with negations := level.negations + 1 })
  | .open outer level, .opening => some (.open (level :: outer) {})
  | .closed outer any all, .and => some (.open outer { any, all := some all })
  | .closed outer any all, .or => some (.open outer { any := some (.orAfter any all) })
  | .closed (level :: outer) any all, .closing => some (operand outer level (.orAfter any all))
  | _, _ => none

/-- The formula that was read, if no operand and no parenthesis is missing. -/
def formula? : Reading → Option (Formula Predicate)
  | .closed [] any all => some (.orAfter any all)
  | _ => none

end Reading

/-- The condition of a text. -/
def readCondition (text : String) : Option (Formula Predicate) := do
  let marks ← marks? (lex text.toList)
  let reading ← marks.foldlM Reading.step (.open [] {})
  reading.formula?

/-! ### Conditions as marks -/

namespace Predicate

def marks : Predicate → List Mark
  | .not predicate => .not :: predicate.marks
  | predicate => [.test predicate]

/-- The test under all negations. -/
def atom : Predicate → Predicate
  | .not predicate => predicate.atom
  | predicate => predicate

def holds (truth : Predicate → Bool) : Predicate → Bool
  | .not predicate => !predicate.holds truth
  | predicate => truth predicate

def path : Predicate → Path
  | .compare path .. | .between path .. | .oneOf path .. | .contains path .. | .beginsWith path ..
  | .present path | .absent path => path
  | .not predicate => predicate.path

def operands : Predicate → List Token
  | .compare _ _ operand | .contains _ operand | .beginsWith _ operand => [operand]
  | .between _ low high => [low, high]
  | .oneOf _ candidates => candidates
  | .present _ | .absent _ => []
  | .not predicate => predicate.operands

/-- Its path and its operands are spelled in tokens, and there is something to choose from. -/
def IsSpelled : Predicate → Prop
  | .compare path _ operand | .contains path operand | .beginsWith path operand =>
    path.IsSpelled ∧ isValue operand.toList = true
  | .between path low high =>
    path.IsSpelled ∧ isValue low.toList = true ∧ isValue high.toList = true
  | .oneOf path candidates =>
    path.IsSpelled ∧ candidates ≠ [] ∧ ∀ candidate ∈ candidates, isValue candidate.toList = true
  | .present path | .absent path => path.IsSpelled
  | .not predicate => predicate.IsSpelled

theorem isSpelled_iff {predicate : Predicate} : predicate.IsSpelled ↔
    predicate.path.IsSpelled ∧ (∀ token ∈ predicate.operands, isValue token.toList = true) ∧
      predicate.atom ≠ .oneOf predicate.path [] := by
  induction predicate with
  | not predicate ih => exact ih
  | _ => simp [IsSpelled, path, operands, atom, and_comm]

end Predicate

def Connective.keyword : Connective → String
  | .and => "AND"
  | .or => "OR"

def Connective.lexeme : Connective → Lexeme
  | .and => .and
  | .or => .or

def Connective.mark : Connective → Mark
  | .and => .and
  | .or => .or

def Connective.fold : Connective → List Bool → Bool
  | .and, values => values.all id
  | .or, values => values.any id

namespace Condition

mutual

def marks : Condition → List Mark
  | .test predicate => predicate.marks
  | .chain connective parts => [connective.mark].intercalate (marksOf parts)
  | .group condition => .opening :: condition.marks ++ [.closing]

def marksOf : List Condition → List (List Mark)
  | [] => []
  | part :: rest => part.marks :: marksOf rest

end

mutual

def predicates : Condition → List Predicate
  | .test predicate => [predicate]
  | .chain _ parts => predicatesOf parts
  | .group condition => condition.predicates

def predicatesOf : List Condition → List Predicate
  | [] => []
  | part :: rest => part.predicates ++ predicatesOf rest

end

mutual

def holds (truth : Predicate → Bool) : Condition → Bool
  | .test predicate => predicate.holds truth
  | .chain connective parts => connective.fold (holdEach truth parts)
  | .group condition => condition.holds truth

def holdEach (truth : Predicate → Bool) : List Condition → List Bool
  | [] => []
  | part :: rest => part.holds truth :: holdEach truth rest

end

/-- Whether a condition is a bare chain of alternatives. -/
def isChoice : Condition → Bool
  | .chain .or _ => true
  | _ => false

mutual

/-- No chain is empty, and no bare chain of alternatives stands in a conjunction. -/
def Grouped : Condition → Prop
  | .test _ => True
  | .chain connective parts => parts ≠ [] ∧ GroupedIn connective parts
  | .group condition => condition.Grouped

def GroupedIn (connective : Connective) : List Condition → Prop
  | [] => True
  | part :: rest =>
    part.Grouped ∧ (connective = .and → part.isChoice = false) ∧ GroupedIn connective rest

end

end Condition

/-! ### From texts to marks -/

theorem lex_candidates (first : Token) (others : List Token)
    (values : ∀ token ∈ first :: others, isValue token.toList = true) :
    lex (",".intercalate (first :: others)).toList =
      .value first :: others.flatMap fun token => [.comma, .value token] := by
  induction others generalizing first with
  | nil => simp [(isWordOf_value (values first List.mem_cons_self)).lex]
  | cons second others ih =>
    have tail := ih second fun token member => values token (List.mem_cons_of_mem first member)
    have shape : (",".intercalate (first :: second :: others)).toList =
        first.toList ++ ',' :: (",".intercalate (second :: others)).toList := by
      simp [String.intercalate_cons_cons]
    rw [shape, lex_append_comma, tail, (isWordOf_value (values first List.mem_cons_self)).lex]
    rfl

theorem candidates?_values (path : Path) (gathered others : List Token) (rest : List Lexeme) :
    candidates? path gathered
        ((others.flatMap fun token => [.comma, .value token]) ++ .closing :: rest) =
      (marks? rest).map (.test (.oneOf path (gathered ++ others)) :: ·) := by
  induction others generalizing gathered with
  | nil => simp [candidates?]
  | cons next others ih => simp [candidates?, ih]

/-- The lexemes of a predicate are gathered into its marks, whatever follows. -/
theorem marks?_predicate (predicate : Predicate) (spelled : predicate.IsSpelled)
    (rest : List Lexeme) :
    marks? (lex predicate.text.toList ++ rest) =
      (marks? rest).map (predicate.marks ++ ·) := by
  induction predicate with
  | compare path comparator operand =>
    obtain ⟨pathSpelled, value⟩ := spelled
    have shape : (Predicate.compare path comparator operand).text.toList =
        path.text.toList ++ (comparator.text.toList ++ operand.toList) := by
      change (path.text ++ comparator.text ++ operand).toList = _
      simp
    rw [shape,
      lex_comparison_of_words comparator (isWordOf_path pathSpelled) (isWordOf_value value)]
    simp [marks?, Predicate.marks]
  | between path low high =>
    obtain ⟨pathSpelled, lowValue, highValue⟩ := spelled
    have shape : (Predicate.between path low high).text.toList =
        path.text.toList ++ (' ' :: "BETWEEN".toList ++ [' ']) ++
          (low.toList ++ (' ' :: "AND".toList ++ [' ']) ++ high.toList) := by
      change (path.text ++ " BETWEEN " ++ low ++ " AND " ++ high).toList = _
      simp
    -- This `AND` stands between bounds, and `BETWEEN` before it keeps it from being a mark.
    have between : lex "BETWEEN".toList = [.between] := by decide
    have and : lex "AND".toList = [.and] := by decide
    rw [shape, lex_append_keyword _ _ _ between, lex_append_keyword _ _ _ and,
      (isWordOf_path pathSpelled).lex, (isWordOf_value lowValue).lex,
      (isWordOf_value highValue).lex]
    simp [marks?, Predicate.marks]
  | oneOf path candidates =>
    obtain ⟨pathSpelled, nonempty, values⟩ := spelled
    rcases candidates with _ | ⟨first, others⟩
    · exact absurd rfl nonempty
    · have shape : (Predicate.oneOf path (first :: others)).text.toList =
          path.text.toList ++ (' ' :: "IN".toList ++ [' ']) ++
            ([] ++ '(' :: ((",".intercalate (first :: others)).toList ++ ")".toList)) := by
        change (path.text ++ " IN (" ++ ",".intercalate (first :: others) ++ ")").toList = _
        simp
      have oneOf : lex "IN".toList = [.oneOf] := by decide
      rw [shape, lex_append_keyword _ _ _ oneOf, lex_append_opening,
        lex_append_end, lex_candidates first others values, (isWordOf_path pathSpelled).lex]
      simp [marks?, candidates?_values, Predicate.marks]
  | contains path operand =>
    have lexed := lex_call_path_value .contains spelled.1 spelled.2
    have text : (Predicate.contains path operand).text =
      Function.contains.name ++ "(" ++ path.text ++ ", " ++ operand ++ ")" := rfl
    rw [text, lexed]
    simp [marks?, Predicate.marks]
  | beginsWith path operand =>
    have lexed := lex_call_path_value .beginsWith spelled.1 spelled.2
    have text : (Predicate.beginsWith path operand).text =
      Function.beginsWith.name ++ "(" ++ path.text ++ ", " ++ operand ++ ")" := rfl
    rw [text, lexed]
    simp [marks?, Predicate.marks]
  | present path =>
    have text : (Predicate.present path).text =
      Function.present.name ++ "(" ++ path.text ++ ")" := rfl
    rw [text, lex_call_path .present spelled]
    simp [marks?, Predicate.marks]
  | absent path =>
    have text : (Predicate.absent path).text =
      Function.absent.name ++ "(" ++ path.text ++ ")" := rfl
    rw [text, lex_call_path .absent spelled]
    simp [marks?, Predicate.marks]
  | not predicate ih =>
    have shape : (Predicate.not predicate).text.toList =
        "NOT".toList ++ ' ' :: predicate.text.toList := by
      change ("NOT " ++ predicate.text).toList = _
      simp
    have not : lex "NOT".toList = [.not] := by decide
    rw [shape, lex_append_blank, not]
    simp [marks?, Predicate.marks, ih spelled, Function.comp_def]

namespace Condition

theorem lex_connective (connective : Connective) (xs ys : List Char) :
    lex (xs ++ (connective.text.toList ++ ys)) = lex xs ++ connective.lexeme :: lex ys := by
  have shape : xs ++ (connective.text.toList ++ ys) =
      xs ++ (' ' :: connective.keyword.toList ++ [' ']) ++ ys := by
    cases connective <;> simp [Connective.text, Connective.keyword]
  have read : lex connective.keyword.toList = [connective.lexeme] := by
    cases connective <;> decide
  rw [shape, lex_append_keyword xs ys _ read]

theorem marks?_connective (connective : Connective) (lexemes : List Lexeme) :
    marks? (connective.lexeme :: lexemes) = (marks? lexemes).map (connective.mark :: ·) := by
  cases connective <;> simp [Connective.lexeme, Connective.mark, marks?]

mutual

/-- The text of a condition is gathered into its marks, whatever follows. -/
theorem marks?_text : ∀ (condition : Condition),
    (∀ predicate ∈ condition.predicates, predicate.IsSpelled) → ∀ rest : List Lexeme,
      marks? (lex condition.text.toList ++ rest) = (marks? rest).map (condition.marks ++ ·)
  | .test predicate, spelled, rest => by
    simp only [predicates, List.mem_singleton, forall_eq] at spelled
    exact marks?_predicate predicate spelled rest
  | .chain connective parts, spelled, rest => marks?_texts connective parts spelled rest
  | .group condition, spelled, rest => by
    -- The closing parenthesis is part of what follows the text inside.
    have inner := marks?_text condition spelled (.closing :: rest)
    have shape : (Condition.group condition).text.toList =
        [] ++ '(' :: (condition.text.toList ++ ")".toList) := by
      simp [text]
    rw [shape, lex_append_opening, lex_append_end]
    simp [marks?, marks, inner, Function.comp_def]

theorem marks?_texts (connective : Connective) : ∀ (parts : List Condition),
    (∀ predicate ∈ predicatesOf parts, predicate.IsSpelled) → ∀ rest : List Lexeme,
      marks? (lex (connective.text.intercalate (texts parts)).toList ++ rest) =
        (marks? rest).map ([connective.mark].intercalate (marksOf parts) ++ ·)
  | [], _, rest => by simp [texts, marksOf]
  | [part], spelled, rest => by
    have head := marks?_text part (fun predicate member => spelled predicate (by
      simpa [predicatesOf] using member)) rest
    simpa [texts, marksOf] using head
  | part :: next :: others, spelled, rest => by
    have head := marks?_text part fun predicate member => spelled predicate (by
      simp [predicatesOf, member])
    have tail := marks?_texts connective (next :: others) (fun predicate member =>
      spelled predicate (by
        rw [predicatesOf]
        exact List.mem_append_right _ member)) rest
    simp only [texts, marksOf] at tail ⊢
    rw [String.intercalate_cons_cons, List.intercalate_cons_cons]
    simp only [String.toList_append, List.append_assoc]
    rw [lex_connective, List.append_assoc, List.cons_append, head, marks?_connective, tail]
    simp [Function.comp_def]

end

end Condition

/-! ### Reading the marks of a condition -/

namespace Formula

variable {α : Type}

theorem negate_succ (times : Nat) (formula : Formula α) :
    formula.negate (times + 1) = (Formula.not formula).negate times := by
  induction times with
  | zero => rfl
  | succ times ih =>
    rw [negate, ih]
    rfl

theorem tests_andAfter (before : Option (Formula α)) (formula : Formula α) :
    (andAfter before formula).tests = before.toList.flatMap tests ++ formula.tests := by
  cases before <;> simp [andAfter, tests]

theorem tests_orAfter (before : Option (Formula α)) (formula : Formula α) :
    (orAfter before formula).tests = before.toList.flatMap tests ++ formula.tests := by
  cases before <;> simp [orAfter, tests]

theorem holds_andAfter (truth : α → Bool) (before : Option (Formula α)) (formula : Formula α) :
    (andAfter before formula).holds truth =
      (before.all (holds truth) && formula.holds truth) := by
  cases before <;> simp [andAfter, holds]

theorem holds_orAfter (truth : α → Bool) (before : Option (Formula α)) (formula : Formula α) :
    (orAfter before formula).holds truth =
      (before.any (holds truth) || formula.holds truth) := by
  cases before <;> simp [orAfter, holds]

end Formula

/-- What some marks say: their tests in order, and the truth they have. -/
structure Saying where
  tests : List Predicate
  holds : (Predicate → Bool) → Bool

/-- Marks that go on with a conjunction wherever they are read. -/
def Conjoins (marks : List Mark) (saying : Saying) : Prop :=
  ∀ outer any all, ∃ formula,
    marks.foldlM Reading.step (.open outer { any, all }) = some (.closed outer any formula) ∧
    formula.tests = all.toList.flatMap Formula.tests ++ saying.tests ∧
    ∀ truth, formula.holds truth = (all.all (Formula.holds truth) && saying.holds truth)

/-- Marks that go on with alternatives wherever a new one is begun. -/
def Disjoins (marks : List Mark) (saying : Saying) : Prop :=
  ∀ outer any, ∃ before formula,
    marks.foldlM Reading.step (.open outer { any }) = some (.closed outer before formula) ∧
    (Formula.orAfter before formula).tests =
      any.toList.flatMap Formula.tests ++ saying.tests ∧
    ∀ truth, (Formula.orAfter before formula).holds truth =
      (any.any (Formula.holds truth) || saying.holds truth)

theorem Conjoins.disjoins {marks : List Mark} {saying : Saying}
    (conjoins : Conjoins marks saying) : Disjoins marks saying := by
  intro outer any
  obtain ⟨formula, run, tests, holds⟩ := conjoins outer any none
  refine ⟨any, formula, run, ?_, fun truth => ?_⟩
  · rw [Formula.tests_orAfter, tests]
    rfl
  · rw [Formula.holds_orAfter, holds truth]
    simp

theorem Conjoins.and {first second : List Mark} {one two both : Saying}
    (firstReads : Conjoins first one) (secondReads : Conjoins second two)
    (tests : both.tests = one.tests ++ two.tests)
    (holds : ∀ truth, both.holds truth = (one.holds truth && two.holds truth)) :
    Conjoins (first ++ .and :: second) both := by
  intro outer any all
  obtain ⟨left, leftRun, leftTests, leftHolds⟩ := firstReads outer any all
  obtain ⟨right, rightRun, rightTests, rightHolds⟩ := secondReads outer any (some left)
  -- The second part is read with the first one pending, which binds to the left.
  refine ⟨right, ?_, ?_, fun truth => ?_⟩
  · rw [List.foldlM_append, leftRun]
    exact rightRun
  · rw [rightTests, tests]
    simp [leftTests]
  · rw [rightHolds, holds]
    simp [leftHolds, Bool.and_assoc]

theorem Disjoins.or {first second : List Mark} {one two both : Saying}
    (firstReads : Disjoins first one) (secondReads : Disjoins second two)
    (tests : both.tests = one.tests ++ two.tests)
    (holds : ∀ truth, both.holds truth = (one.holds truth || two.holds truth)) :
    Disjoins (first ++ .or :: second) both := by
  intro outer any
  obtain ⟨before, left, leftRun, leftTests, leftHolds⟩ := firstReads outer any
  obtain ⟨last, right, rightRun, rightTests, rightHolds⟩ :=
    secondReads outer (some (.orAfter before left))
  refine ⟨last, right, ?_, ?_, fun truth => ?_⟩
  · rw [List.foldlM_append, leftRun]
    exact rightRun
  · rw [rightTests, tests]
    simp [leftTests]
  · rw [rightHolds, holds]
    simp [leftHolds, Bool.or_assoc]

/-- In parentheses, alternatives are one operand. -/
theorem Disjoins.group {marks : List Mark} {saying : Saying} (reads : Disjoins marks saying) :
    Conjoins (.opening :: marks ++ [.closing]) saying := by
  intro outer any all
  -- What is pending outside waits as a level of its own until the parenthesis is closed.
  obtain ⟨before, formula, run, tests, holds⟩ := reads ({ any, all } :: outer) none
  refine ⟨.andAfter all (.orAfter before formula), ?_, ?_, fun truth => ?_⟩
  · rw [List.cons_append, List.foldlM_cons]
    change (marks ++ [Mark.closing]).foldlM Reading.step (.open ({ any, all } :: outer) {}) = _
    rw [List.foldlM_append, run]
    rfl
  · rw [Formula.tests_andAfter, tests]
    rfl
  · rw [Formula.holds_andAfter, holds]
    simp

theorem reads_predicate (predicate : Predicate) (outer : List Level) (level : Level) :
    ∃ formula, predicate.marks.foldlM Reading.step (.open outer level) =
        some (Reading.operand outer level formula) ∧
      formula.tests = [predicate.atom] ∧
      ∀ truth, formula.holds truth = predicate.holds truth := by
  induction predicate generalizing level with
  | not predicate ih =>
    -- A negation is counted, and undone in the formula when its operand has been read.
    obtain ⟨formula, run, tests, holds⟩ :=
      ih { level with negations := level.negations + 1 }
    refine ⟨.not formula, ?_, tests, fun truth => ?_⟩
    · rw [Predicate.marks, List.foldlM_cons]
      refine run.trans ?_
      simp only [Reading.operand, Formula.negate_succ]
    · rw [Formula.holds, holds]
      rfl
  | _ => exact ⟨.test _, rfl, rfl, fun _ => rfl⟩

theorem conjoins_predicate (predicate : Predicate) :
    Conjoins predicate.marks ⟨[predicate.atom], fun truth => predicate.holds truth⟩ := by
  intro outer any all
  obtain ⟨formula, run, tests, holds⟩ := reads_predicate predicate outer { any, all }
  refine ⟨_, run, ?_, fun truth => ?_⟩
  · rw [Formula.tests_andAfter, Formula.negate, tests]
  · rw [Formula.holds_andAfter, Formula.negate, holds]

namespace Condition

/-- What a condition says. -/
def saying (condition : Condition) : Saying where
  tests := condition.predicates.map Predicate.atom
  holds truth := condition.holds truth

/-- What the parts of a chain say. -/
def chainSaying (connective : Connective) (parts : List Condition) : Saying where
  tests := (predicatesOf parts).map Predicate.atom
  holds truth := connective.fold (holdEach truth parts)

theorem chainSaying_singleton (connective : Connective) (part : Condition) :
    chainSaying connective [part] = part.saying := by
  cases connective <;> simp [chainSaying, saying, predicatesOf, holdEach, Connective.fold]

mutual

/-- A condition may start alternatives anywhere, and may stand in a conjunction unless it is a
bare chain of alternatives. -/
theorem reads_grouped : ∀ condition : Condition, condition.Grouped →
    Disjoins condition.marks condition.saying ∧
      (condition.isChoice = false → Conjoins condition.marks condition.saying)
  | .test predicate, _ =>
    ⟨(conjoins_predicate predicate).disjoins, fun _ => conjoins_predicate predicate⟩
  | .group condition, grouped =>
    have inner := (reads_grouped condition grouped).1.group
    ⟨inner.disjoins, fun _ => inner⟩
  | .chain .and parts, grouped =>
    have all := conjoins_grouped parts grouped.1 grouped.2
    ⟨all.disjoins, fun _ => all⟩
  | .chain .or parts, grouped =>
    ⟨disjoins_grouped parts grouped.1 grouped.2, fun bare => by cases bare⟩

theorem conjoins_grouped : ∀ parts : List Condition, parts ≠ [] → GroupedIn .and parts →
    Conjoins ([Mark.and].intercalate (marksOf parts)) (chainSaying .and parts)
  | [], nonempty, _ => absurd rfl nonempty
  | [part], _, ⟨grouped, bare, _⟩ => by
    rw [chainSaying_singleton, marksOf, marksOf, List.intercalate_singleton]
    exact (reads_grouped part grouped).2 (bare rfl)
  | part :: next :: others, _, ⟨grouped, bare, groupedRest⟩ => by
    have head := (reads_grouped part grouped).2 (bare rfl)
    have tail := conjoins_grouped (next :: others) (List.cons_ne_nil next others) groupedRest
    have marks : [Mark.and].intercalate (marksOf (part :: next :: others)) =
        part.marks ++ .and :: [Mark.and].intercalate (marksOf (next :: others)) := by
      simp [marksOf, List.intercalate_cons_cons]
    rw [marks]
    refine head.and tail ?_ fun truth => rfl
    simp [chainSaying, saying, predicatesOf]

theorem disjoins_grouped : ∀ parts : List Condition, parts ≠ [] → GroupedIn .or parts →
    Disjoins ([Mark.or].intercalate (marksOf parts)) (chainSaying .or parts)
  | [], nonempty, _ => absurd rfl nonempty
  | [part], _, ⟨grouped, _, _⟩ => by
    rw [chainSaying_singleton, marksOf, marksOf, List.intercalate_singleton]
    exact (reads_grouped part grouped).1
  | part :: next :: others, _, ⟨grouped, _, groupedRest⟩ => by
    have head := (reads_grouped part grouped).1
    have tail := disjoins_grouped (next :: others) (List.cons_ne_nil next others) groupedRest
    have marks : [Mark.or].intercalate (marksOf (part :: next :: others)) =
        part.marks ++ .or :: [Mark.or].intercalate (marksOf (next :: others)) := by
      simp [marksOf, List.intercalate_cons_cons]
    rw [marks]
    refine head.or tail ?_ fun truth => rfl
    simp [chainSaying, saying, predicatesOf]

end

end Condition

/-- The text of a condition is read as a formula with the same tests and the same truth. -/
theorem readCondition_text (condition : Condition) (grouped : condition.Grouped)
    (spelled : ∀ predicate ∈ condition.predicates, predicate.IsSpelled) :
    ∃ formula, readCondition condition.text = some formula ∧
      formula.tests = condition.predicates.map Predicate.atom ∧
      ∀ truth, formula.holds truth = condition.holds truth := by
  have gathered := condition.marks?_text spelled []
  rw [List.append_nil] at gathered
  obtain ⟨before, formula, run, tests, holds⟩ :=
    (condition.reads_grouped grouped).1 [] none
  refine ⟨.orAfter before formula, ?_, tests, fun truth => ?_⟩
  · simp only [readCondition, gathered, marks?, Option.map_some, List.append_nil,
      Option.bind_eq_bind, Option.bind_some]
    rw [run]
    rfl
  · rw [holds]
    rfl

example : readCondition "#k_a=:v_a OR NOT #k_b BETWEEN :v_b AND :v_c AND #k_c<:v_d" =
    some (.or (.test (.compare [⟨"#k_a", ""⟩] .eq ":v_a"))
      (.and (.not (.test (.between [⟨"#k_b", ""⟩] ":v_b" ":v_c")))
        (.test (.compare [⟨"#k_c", ""⟩] .lt ":v_d")))) := by
  decide +kernel

end DocQuery
