import DocQuery.Proofs.Query

/-!
# DocQuery.Proofs.Question

A compiled question stands for the test that its value asks for.

A question is compiled by naming its path and then compiling its value. What is said of its
tokens holds in all later placeholders too, so the questions of a document can be compiled one
after another.

## Main results

`compileQuestion_asks`: the predicate of a question resolves to its test and has its truth.
`compileQuestion_spelled`: the predicate of a question on a well-formed path is spelled in tokens.
-/

namespace DocQuery

open Compile

/-! ### Registrations -/

theorem composed_compileCandidates (path : String) (name : Path) (operand : Document) :
    (compileCandidates path name operand).Composed := by
  unfold compileCandidates
  split
  · exact .throw _
  · exact composed_bind (composed_liftM (Naming.composed_bindEach _ _)) fun _ =>
      .pure _
  · exact .throw _

theorem composed_bindThen {α : Type} (key : String) (document : Document)
    (finish : Token → α) :
    (do return finish (← Naming.bindDocument key document) : Compile α).Composed :=
  composed_bind (composed_liftM (Naming.composed_bindDocument key document)) fun _ =>
    .pure _

theorem composed_compileOperator (path : String) (name : Path) (operand : Document)
    (operator : Operator) : (compileOperator path name operand operator).Composed := by
  unfold compileOperator
  split
  · exact composed_bindThen path operand _
  · split
    · refine composed_bind (composed_liftM (Naming.composed_bindDocument _ _)) fun _ => ?_
      exact composed_bindThen _ _ _
    · exact .throw _
  · exact composed_compileCandidates path name operand
  · exact composed_bind (composed_compileCandidates path name operand) fun _ =>
      .pure _
  · exact composed_bindThen path operand _
  · exact .pure _
  · exact composed_bindThen path _ _

theorem composed_compilePredicate (path : String) (name : Path) (value : Document) :
    (compilePredicate path name value).Composed := by
  induction value using compilePredicate.induct with
  | case1 operand ih =>
    rw [compilePredicate, if_pos rfl]
    exact composed_bind ih fun _ => .pure _
  | case2 key operand notNot isOperator operator known =>
    rw [compilePredicate, if_neg notNot, if_pos isOperator, known]
    exact composed_compileOperator path name operand operator
  | case3 key operand notNot isOperator unknown =>
    rw [compilePredicate, if_neg notNot, if_pos isOperator, unknown]
    exact .throw _
  | case4 key operand notNot notOperator =>
    rw [compilePredicate, if_neg notNot, if_neg notOperator]
    exact composed_bindThen path _ _
  | case5 literal other =>
    rw [compilePredicate]
    · exact composed_bindThen path literal _
    · exact other

/-- Compile what one field asks about an attribute. -/
def compileQuestion (question : String × Document) : Compile Predicate := do
  let name ← Naming.nameText question.1
  compilePredicate question.1 name question.2

theorem composed_compileQuestion (question : String × Document) :
    (compileQuestion question).Composed :=
  composed_bind (composed_liftM (Naming.composed_nameText _)) fun _ =>
    composed_compilePredicate _ _ _

/-! ### What a question becomes -/

/-- A predicate stands for a test, and its truth is that of the question. -/
structure Asks (r : Placeholders) (predicate : Predicate) (test : Test)
    (holds : (Test → Bool) → Bool) : Prop where
  resolved : predicate.atom.resolve? r = some test
  holds : ∀ truth, predicate.holds (r.truth truth) = holds truth

theorem Asks.not {r : Placeholders} {predicate : Predicate} {test : Test}
    {holds : (Test → Bool) → Bool} (asks : Asks r predicate test holds) :
    Asks r (.not predicate) test fun truth => !holds truth where
  resolved := asks.resolved
  holds truth := by rw [Predicate.holds, asks.holds]

/-- A predicate that resolves by itself is no negation. -/
theorem Asks.of_resolve {r : Placeholders} {predicate : Predicate} {test : Test}
    (resolved : predicate.resolve? r = some test) :
    Asks r predicate test fun truth => truth test := by
  cases predicate with
  | not predicate => cases resolved
  | _ =>
    refine ⟨resolved, fun truth => ?_⟩
    simp only [Predicate.holds, Placeholders.truth, resolved, Option.any_some]

section Questions

variable {path : String} {name target : Path} {value operand : Document} {predicate : Predicate}
  {p q r : Placeholders}

theorem compileCandidates_ok
    (ran : (compileCandidates path name operand).runFrom p = (.ok predicate, q)) :
    ∃ candidates, operand = .array candidates ∧ candidates ≠ [] ∧
      predicate = .oneOf name (Naming.bindEach path candidates p).1 ∧
      q = (Naming.bindEach path candidates p).2 := by
  unfold compileCandidates at ran
  split at ran
  · cases ran
  next candidates nonempty =>
    rw [runFrom_liftM_map_ok] at ran
    exact ⟨candidates, rfl, nonempty, ran.1.symm, ran.2.symm⟩
  · cases ran

theorem compileCandidates_resolve
    (ran : (compileCandidates path name operand).runFrom p = (.ok predicate, q)) (later : q ≤ r)
    (named : name.resolve? r = some target) :
    ∃ candidates, operand = .array candidates ∧
      predicate.resolve? r = some (.oneOf target (candidates.map .ofDocument)) := by
  obtain ⟨candidates, rfl, -, rfl, rfl⟩ := compileCandidates_ok ran
  have bound := (Naming.bindEach_binds path candidates p).bound later
  exact ⟨candidates, rfl, by simp [Predicate.resolve?, named, bound]⟩

/-- A comparison with a value that was bound for it. -/
theorem asks_compare (comparator : Comparator)
    (later : (Naming.bindDocument path operand p).2 ≤ r) (named : name.resolve? r = some target) :
    Asks r (.compare name comparator (Naming.bindDocument path operand p).1)
      (.compare target comparator (.ofDocument operand))
      fun truth => truth (.compare target comparator (.ofDocument operand)) := by
  have bound := Naming.bindDocument_bound path operand p later
  exact .of_resolve (by simp [Predicate.resolve?, named, bound])

theorem compileOperator_asks {operator : Operator}
    (ran : (compileOperator path name operand operator).runFrom p = (.ok predicate, q))
    (later : q ≤ r) (named : name.resolve? r = some target) :
    ∃ test, operator.test? target operand = some test ∧
      Asks r predicate test fun truth =>
        if operator = .noneOf then !truth test else truth test := by
  cases operator with
  | compare comparator =>
    rw [compileOperator, runFrom_liftM_map_ok] at ran
    obtain ⟨rfl, rfl⟩ := ran
    exact ⟨_, rfl, asks_compare comparator later named⟩
  | between =>
    unfold compileOperator at ran
    dsimp only at ran
    split at ran
    next low high =>
      rw [runFrom_liftM_bind, runFrom_liftM_map_ok] at ran
      obtain ⟨rfl, rfl⟩ := ran
      have highBound := Naming.bindDocument_bound (path ++ "_1") high _ later
      -- The lower bound was bound first and is still there after the upper one.
      have lowBound := Naming.bindDocument_bound (path ++ "_0") low p
        (le_trans ((Naming.composed_bindDocument _ high).registers _).le later)
      exact ⟨_, rfl, .of_resolve (by simp [Predicate.resolve?, named, lowBound, highBound])⟩
    · cases ran
  | oneOf =>
    obtain ⟨candidates, rfl, resolved⟩ := compileCandidates_resolve ran later named
    exact ⟨_, rfl, .of_resolve resolved⟩
  | noneOf =>
    rw [compileOperator, runFrom_map_ok] at ran
    obtain ⟨positive, ran, rfl⟩ := ran
    obtain ⟨candidates, rfl, resolved⟩ := compileCandidates_resolve ran later named
    exact ⟨_, rfl, (Asks.of_resolve resolved).not⟩
  | contains =>
    rw [compileOperator, runFrom_liftM_map_ok] at ran
    obtain ⟨rfl, rfl⟩ := ran
    have bound := Naming.bindDocument_bound path operand p later
    exact ⟨_, rfl, .of_resolve (by simp [Predicate.resolve?, named, bound])⟩
  | exist =>
    rw [compileOperator, runFrom_pure, Document.isTruthy_eq] at ran
    cases ran
    refine ⟨_, rfl, .of_resolve ?_⟩
    cases operand.standsForFalse <;> simp [Predicate.resolve?, named]
  | beginsWith =>
    -- What is bound is a text, whatever the operand is.
    rw [compileOperator, Document.toText_eq, runFrom_liftM_map_ok] at ran
    obtain ⟨rfl, rfl⟩ := ran
    have bound := Naming.bindDocument_bound path (.string operand.beginning) p later
    rw [AttributeValue.ofDocument] at bound
    exact ⟨_, rfl, .of_resolve (by simp [Predicate.resolve?, named, bound])⟩

theorem Operator.noneOf_iff {key : String} {operator : Operator}
    (isKey : key = operator.key) : operator = .noneOf ↔ key = "$nin" := by
  rw [isKey]
  exact Operator.key_injective.eq_iff.symm

theorem compilePredicate_asks
    (ran : (compilePredicate path name value).runFrom p = (.ok predicate, q)) (later : q ≤ r)
    (named : name.resolve? r = some target) :
    ∃ test, Query.test? target value = some test ∧
      Asks r predicate test fun truth => Query.holds truth target value := by
  induction value using compilePredicate.induct generalizing predicate q with
  | case1 operand ih =>
    -- `$not`: the same test, negated once more.
    rw [compilePredicate, if_pos rfl, runFrom_map_ok] at ran
    obtain ⟨positive, ran, rfl⟩ := ran
    obtain ⟨test, asked, asks⟩ := ih ran later
    refine ⟨test, by rw [Query.test?, if_pos rfl, asked], ?_⟩
    simpa only [Query.holds, if_true] using asks.not
  | case2 key operand notNot isOperator operator known =>
    rw [compilePredicate, if_neg notNot, if_pos isOperator, known] at ran
    obtain ⟨test, asked, asks⟩ := compileOperator_asks ran later named
    have isTest : Query.test? target (.object [(key, operand)]) = some test := by
      rw [Query.test?, if_neg notNot, if_pos (isOperatorKey_iff.mp isOperator),
        ← Operator.ofKey?_eq_named?, known, Option.bind_some, asked]
    refine ⟨test, isTest, asks.resolved, fun truth => ?_⟩
    -- Of the operators, `$nin` alone negates its test.
    simp only [asks.holds, Query.holds, if_neg notNot, isTest, Option.any_some,
      Operator.noneOf_iff (Operator.ofKey?_eq_some_iff.mp known)]
  | case3 key operand notNot isOperator unknown =>
    rw [compilePredicate, if_neg notNot, if_pos isOperator, unknown] at ran
    cases ran
  | case4 key operand notNot notOperator =>
    -- A document whose only key is no operator is a value like any other.
    rw [compilePredicate, if_neg notNot, if_neg notOperator, runFrom_liftM_map_ok] at ran
    obtain ⟨rfl, rfl⟩ := ran
    have asks := asks_compare .eq later named
    have isTest : Query.test? target (.object [(key, operand)]) =
        some (.compare target .eq (.ofDocument (.object [(key, operand)]))) := by
      rw [Query.test?, if_neg notNot, if_neg (isOperatorKey_iff.not.mp notOperator)]
    have notNin : key ≠ "$nin" := by
      rintro rfl
      exact notOperator (by decide)
    refine ⟨_, isTest, asks.resolved, fun truth => ?_⟩
    simp only [asks.holds, Query.holds, if_neg notNot, if_neg notNin, isTest, Option.any_some]
  | case5 literal other =>
    rw [compilePredicate.eq_2 _ _ _ other, runFrom_liftM_map_ok] at ran
    obtain ⟨rfl, rfl⟩ := ran
    have asks := asks_compare .eq later named
    have isTest : Query.test? target literal =
        some (.compare target .eq (.ofDocument literal)) := by
      rw [Query.test?]
      exact other
    refine ⟨_, isTest, asks.resolved, fun truth => ?_⟩
    rw [asks.holds, Query.holds, isTest, Option.any_some]
    exact other

/-- A compiled question stands for its test, then and later. -/
theorem compileQuestion_asks {question : String × Document}
    (ran : (compileQuestion question).runFrom p = (.ok predicate, q)) (later : q ≤ r) :
    ∃ test, Query.test? (.ofText question.1) question.2 = some test ∧
      Asks r predicate test fun truth => Query.holds truth (.ofText question.1) question.2 := by
  rw [compileQuestion, runFrom_liftM_bind] at ran
  -- The path was named first; its tokens outlive what the operands register.
  have grown := (composed_compilePredicate _ _ _).le ran
  have named := Naming.resolve?_nameText question.1 p (le_trans grown later)
  exact compilePredicate_asks ran later named

end Questions

/-! ### How questions are spelled -/

/-- A predicate on `name` whose operands were bound in turn, with something to choose from. -/
structure Predicate.IsCompiled (name : Path) (p : Placeholders) (predicate : Predicate)
    (q : Placeholders) : Prop where
  path : predicate.path = name
  operands : ∃ values, p.Binds values predicate.operands q
  choice : predicate.atom ≠ .oneOf name []

namespace Predicate.IsCompiled

variable {name : Path} {predicate : Predicate} {p q : Placeholders}

theorem not (compiled : predicate.IsCompiled name p q) :
    (Predicate.not predicate).IsCompiled name p q :=
  ⟨compiled.path, compiled.operands, compiled.choice⟩

theorem isSpelled (compiled : predicate.IsCompiled name p q) (spelled : name.IsSpelled) :
    predicate.IsSpelled := by
  obtain ⟨rfl, ⟨values, binds⟩, choice⟩ := compiled
  exact isSpelled_iff.mpr ⟨spelled, binds.isValue, choice⟩

end Predicate.IsCompiled

section Spelling

variable {path : String} {name : Path} {value operand : Document} {predicate : Predicate}
  {p q : Placeholders}

theorem compileCandidates_isCompiled
    (ran : (compileCandidates path name operand).runFrom p = (.ok predicate, q)) :
    predicate.IsCompiled name p q := by
  obtain ⟨candidates, rfl, nonempty, rfl, rfl⟩ := compileCandidates_ok ran
  refine ⟨rfl, ⟨_, Naming.bindEach_binds path candidates p⟩, fun empty => ?_⟩
  injection empty with _ noTokens
  exact Naming.bindEach_ne_nil nonempty p noTokens

theorem compileOperator_isCompiled {operator : Operator}
    (ran : (compileOperator path name operand operator).runFrom p = (.ok predicate, q)) :
    predicate.IsCompiled name p q := by
  cases operator with
  | compare | contains | beginsWith =>
    rw [compileOperator, runFrom_liftM_map_ok] at ran
    obtain ⟨rfl, rfl⟩ := ran
    exact ⟨rfl, ⟨_, .single path _ p⟩, nofun⟩
  | between =>
    unfold compileOperator at ran
    dsimp only at ran
    split at ran
    next low high =>
      rw [runFrom_liftM_bind, runFrom_liftM_map_ok] at ran
      obtain ⟨rfl, rfl⟩ := ran
      exact ⟨rfl, ⟨_, .value _ _ (.single _ _ _)⟩, nofun⟩
    · cases ran
  | oneOf => exact compileCandidates_isCompiled ran
  | noneOf =>
    rw [compileOperator, runFrom_map_ok] at ran
    obtain ⟨positive, ran, rfl⟩ := ran
    exact (compileCandidates_isCompiled ran).not
  | exist =>
    rw [compileOperator, runFrom_pure] at ran
    cases ran
    split <;> exact ⟨rfl, ⟨_, .nil p⟩, nofun⟩

theorem compilePredicate_isCompiled
    (ran : (compilePredicate path name value).runFrom p = (.ok predicate, q)) :
    predicate.IsCompiled name p q := by
  induction value using compilePredicate.induct generalizing predicate q with
  | case1 operand ih =>
    rw [compilePredicate, if_pos rfl, runFrom_map_ok] at ran
    obtain ⟨positive, ran, rfl⟩ := ran
    exact (ih ran).not
  | case2 key operand notNot isOperator operator known =>
    rw [compilePredicate, if_neg notNot, if_pos isOperator, known] at ran
    exact compileOperator_isCompiled ran
  | case3 key operand notNot isOperator unknown =>
    rw [compilePredicate, if_neg notNot, if_pos isOperator, unknown] at ran
    cases ran
  | case4 key operand notNot notOperator =>
    rw [compilePredicate, if_neg notNot, if_neg notOperator, runFrom_liftM_map_ok] at ran
    obtain ⟨rfl, rfl⟩ := ran
    exact ⟨rfl, ⟨_, .single path _ p⟩, nofun⟩
  | case5 literal other =>
    rw [compilePredicate.eq_2 _ _ _ other, runFrom_liftM_map_ok] at ran
    obtain ⟨rfl, rfl⟩ := ran
    exact ⟨rfl, ⟨_, .single path _ p⟩, nofun⟩

/-- The path of a question is named before its operands are bound. -/
theorem compileQuestion_isCompiled {question : String × Document}
    (ran : (compileQuestion question).runFrom p = (.ok predicate, q)) :
    predicate.IsCompiled (Naming.nameText question.1 p).1 (Naming.nameText question.1 p).2 q := by
  rw [compileQuestion, runFrom_liftM_bind] at ran
  exact compilePredicate_isCompiled ran

theorem compileQuestion_spelled {question : String × Document}
    (wellFormed : WellFormedPath question.1)
    (ran : (compileQuestion question).runFrom p = (.ok predicate, q)) :
    predicate.IsSpelled := by
  exact (compileQuestion_isCompiled ran).isSpelled
    (Naming.nameText_spelled question.1 p wellFormed)

/-- Questions on well-formed paths are spelled in tokens. -/
theorem questions_spelled {questions : Fields} {predicates : List Predicate}
    (wellFormed : ∀ question ∈ questions, WellFormedPath question.1)
    (ran : Threaded compileQuestion p questions predicates q) :
    ∀ predicate ∈ predicates, predicate.IsSpelled :=
  ran.forall_results fun question member => compileQuestion_spelled (wellFormed question member)

/-- Questions and the predicates they become have the same tests. -/
theorem questions_tests {questions : Fields} {predicates : List Predicate} {r : Placeholders}
    (ran : Threaded compileQuestion p questions predicates q) (later : q ≤ r) :
    ∃ tests, (questions.mapM fun (path, value) => Query.test? (.ofText path) value) = some tests ∧
      (predicates.map Predicate.atom).mapM (Predicate.resolve? r) = some tests := by
  rw [List.mapM_map]
  refine ran.mapM_agree composed_compileQuestion (fun _ head grown => ?_) .refl later
  obtain ⟨test, asked, asks⟩ := compileQuestion_asks head grown
  exact ⟨test, asked, asks.resolved⟩

end Spelling

end DocQuery
