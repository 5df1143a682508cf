import DocQuery.Proofs.Question

/-!
# DocQuery.Proofs.ConditionMeaning

A compiled condition says what its query document asks.

## Proof strategy

Each equation of the compiler is turned once into what a successful run looks like. What parts of
a document mean (`Means`) is kept when parts are put side by side, put in parentheses or joined,
and is carried through documents by recursion on the fields and members that were compiled.

## Main result

`readCondition_compileCondition`: the text of a compiled condition is read as a formula with the
tests and the verdict of its query.
-/

namespace DocQuery

open Compile

/-! ### Registrations -/

mutual

theorem composed_compileFields (siblings : Bool) : ∀ fields : Fields,
    (compileFields siblings fields).Composed
  | [] => by
    rw [compileFields]
    exact .pure []
  | (key, value) :: rest => by
    rw [compileFields]
    refine composed_bind (composed_compileField key value) fun part => ?_
    refine composed_bind (composed_compileFields siblings rest) fun parts => ?_
    exact .pure _

theorem composed_compileField : ∀ (key : String) (value : Document),
    (compileField key value).Composed
  | key, value => by
    unfold compileField
    split
    · -- A chain: an empty array and anything but an array fail.
      split
      · exact .throw _
      · refine composed_bind (composed_compileMembers _ _) fun parts => ?_
        exact .pure _
      · exact .throw _
    · -- A question, unless the key is an operator that cannot stand here.
      split
      · exact .throw _
      · refine composed_bind (composed_liftM (Naming.composed_nameText key)) fun name => ?_
        refine composed_bind (composed_compilePredicate key name value) fun predicate => ?_
        exact .pure _

theorem composed_compileMembers (connective : Connective) : ∀ members : List Document,
    (compileMembers connective members).Composed
  | [] => by
    rw [compileMembers]
    exact .pure []
  | member :: members => by
    cases member with
    | object fields =>
      rw [compileMembers]
      refine composed_bind (composed_compileFields _ fields) fun own => ?_
      refine composed_bind (composed_compileMembers connective members) fun others => ?_
      exact .pure _
    | _ => exact .throw _

end

theorem composed_compileCondition (query : Document) : (compileCondition query).Composed := by
  cases query with
  | object fields =>
    exact composed_bind (composed_compileFields _ fields) fun _ => .pure _
  | _ => exact .throw _

/-! ### Parts of documents -/

section Runs

variable {siblings : Bool} {connective : Connective} {key : String} {value : Document}
  {fields rest : Fields} {members : List Document} {parts : List Condition} {p q : Placeholders}

theorem compileFields_cons_ok
    (ran : (compileFields siblings ((key, value) :: rest)).runFrom p = (.ok parts, q)) :
    ∃ part others r, (compileField key value).runFrom p = (.ok part, r) ∧
      (compileFields siblings rest).runFrom r = (.ok others, q) ∧
      parts = (if siblings then part.map Condition.besideSiblings else part).toList ++ others := by
  rw [compileFields, runFrom_bind_ok] at ran
  obtain ⟨part, r, first, ran⟩ := ran
  rw [runFrom_map_ok] at ran
  obtain ⟨others, second, rfl⟩ := ran
  exact ⟨part, others, r, first, second, rfl⟩

theorem compileField_chain_ok {part : Option Condition}
    (ran : (compileField key value).runFrom p = (.ok part, q))
    (isChain : Connective.ofKey? key = some connective) :
    ∃ members parts, value = .array members ∧
      (compileMembers connective members).runFrom p = (.ok parts, q) ∧
      part = Condition.join connective parts := by
  unfold compileField at ran
  rw [isChain] at ran
  dsimp only at ran
  split at ran
  · cases ran
  next members nonempty =>
    rw [runFrom_map_ok] at ran
    obtain ⟨parts, ran, rfl⟩ := ran
    exact ⟨members, parts, rfl, ran, rfl⟩
  · cases ran

theorem compileField_question_ok {part : Option Condition}
    (ran : (compileField key value).runFrom p = (.ok part, q))
    (noChain : Connective.ofKey? key = none) :
    ∃ predicate, (compileQuestion (key, value)).runFrom p = (.ok predicate, q) ∧
      part = some (.test predicate) := by
  unfold compileField at ran
  rw [noChain] at ran
  dsimp only at ran
  split at ran
  · cases ran
  · rw [runFrom_liftM_bind, runFrom_map_ok] at ran
    obtain ⟨predicate, ran, rfl⟩ := ran
    exact ⟨predicate, by rw [compileQuestion, runFrom_liftM_bind, ran], rfl⟩

theorem compileMembers_cons_ok {member : Document}
    (ran : (compileMembers connective (member :: members)).runFrom p = (.ok parts, q)) :
    ∃ fields own others r, member = .object fields ∧
      (compileFields (fields.length > 1) fields).runFrom p = (.ok own, r) ∧
      (compileMembers connective members).runFrom r = (.ok others, q) ∧
      parts = ((Condition.join .and own).map (Condition.memberOf connective)).toList ++ others := by
  cases member with
  | object fields =>
    rw [compileMembers, runFrom_bind_ok] at ran
    obtain ⟨own, r, first, ran⟩ := ran
    dsimp only at ran
    rw [runFrom_map_ok] at ran
    obtain ⟨others, second, rfl⟩ := ran
    exact ⟨fields, own, others, r, rfl, first, second, rfl⟩
  | _ => cases ran

theorem compileCondition_ok {query : Document} {condition : Option Condition}
    (ran : (compileCondition query).runFrom p = (.ok condition, q)) :
    ∃ fields parts, query = .object fields ∧
      (compileFields (fields.length > 1) fields).runFrom p = (.ok parts, q) ∧
      condition = Condition.join .and parts := by
  cases query with
  | object fields =>
    rw [compileCondition, runFrom_map_ok] at ran
    obtain ⟨parts, ran, rfl⟩ := ran
    exact ⟨fields, parts, rfl, ran, rfl⟩
  | _ => cases ran

/-- A field has at most one part. -/
theorem length_compileFields
    (ran : (compileFields siblings fields).runFrom p = (.ok parts, q)) :
    parts.length ≤ fields.length := by
  induction fields generalizing p parts with
  | nil =>
    rw [compileFields, runFrom_pure] at ran
    cases ran
    exact le_refl _
  | cons field rest ih =>
    obtain ⟨part, others, r, -, second, rfl⟩ := compileFields_cons_ok ran
    -- Its own part is missing where the field is a chain without a question.
    have tail := ih second
    cases siblings <;> cases part <;> simp <;> omega

end Runs

/-! ### What parts of documents say -/

namespace Condition

@[simp] theorem isChoice_besideSiblings (part : Condition) :
    part.besideSiblings.isChoice = false := by
  cases part <;> rfl

@[simp] theorem isChoice_memberOf_and (part : Condition) :
    (memberOf .and part).isChoice = false := by
  rcases part with _ | ⟨_ | _, _⟩ | _ <;> rfl

/-- A change of a part that only puts it in parentheses. -/
structure Groups (place : Condition → Condition) : Prop where
  predicates : ∀ part, (place part).predicates = part.predicates
  holds : ∀ truth part, (place part).holds truth = part.holds truth
  grouped : ∀ part, part.Grouped → (place part).Grouped

theorem groups_besideSiblings : Groups besideSiblings where
  predicates part := by cases part <;> rfl
  holds truth part := by cases part <;> rfl
  grouped part grouped := by cases part <;> exact grouped

theorem groups_memberOf (connective : Connective) : Groups (memberOf connective) where
  predicates part := by rcases connective <;> rcases part with _ | ⟨_ | _, _⟩ | _ <;> rfl
  holds truth part := by rcases connective <;> rcases part with _ | ⟨_ | _, _⟩ | _ <;> rfl
  grouped part grouped := by
    rcases connective <;> rcases part with _ | ⟨_ | _, _⟩ | _ <;> exact grouped

theorem predicatesOf_append (parts others : List Condition) :
    predicatesOf (parts ++ others) = predicatesOf parts ++ predicatesOf others := by
  induction parts with
  | nil => rfl
  | cons part parts ih => simp [predicatesOf, ih]

theorem holdEach_append (truth : Predicate → Bool) (parts others : List Condition) :
    holdEach truth (parts ++ others) = holdEach truth parts ++ holdEach truth others := by
  induction parts with
  | nil => rfl
  | cons part parts ih => simp [holdEach, ih]

theorem predicatesOf_map {place : Condition → Condition} (groups : Groups place)
    (parts : List Condition) : predicatesOf (parts.map place) = predicatesOf parts := by
  induction parts with
  | nil => rfl
  | cons part parts ih => simp [predicatesOf, groups.predicates, ih]

theorem holdEach_map {place : Condition → Condition} (groups : Groups place)
    (truth : Predicate → Bool) (parts : List Condition) :
    holdEach truth (parts.map place) = holdEach truth parts := by
  induction parts with
  | nil => rfl
  | cons part parts ih => simp [holdEach, groups.holds, ih]

theorem groupedIn_iff (connective : Connective) (parts : List Condition) :
    GroupedIn connective parts ↔
      ∀ part ∈ parts, part.Grouped ∧ (connective = .and → part.isChoice = false) := by
  induction parts with
  | nil => simp [GroupedIn]
  | cons part parts ih => simp [GroupedIn, ih, and_assoc]

/-! A join is looked at by how many parts it has: none, one, or a chain of them. -/

theorem predicatesOf_join (connective : Connective) (parts : List Condition) :
    predicatesOf (join connective parts).toList = predicatesOf parts := by
  match parts with
  | [] => rfl
  | [part] => rfl
  | first :: second :: rest => simp [join, predicatesOf, predicates]

theorem holdEach_join (connective : Connective) (truth : Predicate → Bool)
    (parts : List Condition) :
    holdEach truth (join connective parts).toList =
      (connective.verdict? (holdEach truth parts)).toList := by
  match parts with
  | [] => rfl
  | [part] => cases connective <;> simp [join, holdEach, Connective.verdict?, Connective.fold]
  | first :: second :: rest => rfl

theorem grouped_join {connective : Connective} {parts : List Condition} {condition : Condition}
    (grouped : ∀ part ∈ parts, part.Grouped)
    (bare : connective = .and → 2 ≤ parts.length → ∀ part ∈ parts, part.isChoice = false)
    (joined : join connective parts = some condition) : condition.Grouped := by
  match parts with
  | [] => cases joined
  | [part] =>
    obtain rfl := Option.some.inj joined
    exact grouped part List.mem_cons_self
  | first :: second :: rest =>
    -- Only here a chain is made, and only here its parts must not be bare alternatives.
    obtain rfl := Option.some.inj joined
    refine ⟨List.cons_ne_nil _ _, (groupedIn_iff _ _).mpr fun part member => ?_⟩
    exact ⟨grouped part member, fun isAnd => bare isAnd (by simp) part member⟩

end Condition

/-- Parts that were compiled from some questions, and the verdicts that they have. -/
structure Means (p q : Placeholders) (questions : Fields)
    (verdicts : (Test → Bool) → List Bool) (parts : List Condition) : Prop where
  ran : Threaded compileQuestion p questions (Condition.predicatesOf parts) q
  grouped : ∀ part ∈ parts, part.Grouped
  verdicts : ∀ {r}, q ≤ r → ∀ truth, Condition.holdEach (r.truth truth) parts = verdicts truth

namespace Means

variable {p q r : Placeholders} {questions others : Fields}
  {verdicts more : (Test → Bool) → List Bool} {parts rest : List Condition}

theorem nil (p : Placeholders) : Means p p [] (fun _ => []) [] where
  ran := .nil p
  grouped := by simp
  verdicts _ _ := rfl

theorem append (first : Means p q questions verdicts parts)
    (second : Means q r others more rest) :
    Means p r (questions ++ others) (fun truth => verdicts truth ++ more truth)
      (parts ++ rest) where
  ran := by
    rw [Condition.predicatesOf_append]
    exact first.ran.append second.ran
  grouped part member := (List.mem_append.mp member).elim (first.grouped part) (second.grouped part)
  verdicts later truth := by
    -- What the first parts mean is looked up after the second parts were compiled.
    have grown := second.ran.le composed_compileQuestion
    rw [Condition.holdEach_append, first.verdicts (le_trans grown later), second.verdicts later]

/-- Parentheses change nothing of what is meant. -/
theorem map {place : Condition → Condition} (means : Means p q questions verdicts parts)
    (groups : Condition.Groups place) : Means p q questions verdicts (parts.map place) where
  ran := by
    rw [Condition.predicatesOf_map groups]
    exact means.ran
  grouped := by
    simp only [List.mem_map]
    rintro _ ⟨part, member, rfl⟩
    exact groups.grouped part (means.grouped part member)
  verdicts later truth := by
    rw [Condition.holdEach_map groups, means.verdicts later truth]

/-- Parts that are joined have one verdict, if any. Alternatives among several parts of a
conjunction have to be in parentheses. -/
theorem join (connective : Connective) (means : Means p q questions verdicts parts)
    (bare : connective = .and → 2 ≤ parts.length → ∀ part ∈ parts, part.isChoice = false) :
    Means p q questions (fun truth => (connective.verdict? (verdicts truth)).toList)
      (Condition.join connective parts).toList where
  ran := by
    rw [Condition.predicatesOf_join]
    exact means.ran
  grouped := by
    intro condition member
    exact Condition.grouped_join means.grouped bare (Option.mem_toList.mp member)
  verdicts later truth := by
    rw [Condition.holdEach_join, means.verdicts later truth]

end Means

/-- Beside siblings no part is a bare chain. -/
theorem bare_compileFields {fields : Fields} {parts : List Condition} {p q : Placeholders}
    (ran : (compileFields true fields).runFrom p = (.ok parts, q)) :
    ∀ part ∈ parts, part.isChoice = false := by
  induction fields generalizing p parts with
  | nil =>
    rw [compileFields, runFrom_pure] at ran
    cases ran
    simp
  | cons field rest ih =>
    obtain ⟨own, others, r, -, second, rfl⟩ := compileFields_cons_ok ran
    intro part member
    rcases List.mem_append.mp member with inOwn | inOthers
    · cases own with
      | none => cases inOwn
      | some own =>
        obtain rfl := List.mem_singleton.mp inOwn
        exact own.isChoice_besideSiblings
    · exact ih second part inOthers

/-- The members of a conjunction are no bare chains of alternatives. -/
theorem bare_compileMembers {members : List Document} {parts : List Condition}
    {p q : Placeholders} (ran : (compileMembers .and members).runFrom p = (.ok parts, q)) :
    ∀ part ∈ parts, part.isChoice = false := by
  induction members generalizing p parts with
  | nil =>
    rw [compileMembers, runFrom_pure] at ran
    cases ran
    simp
  | cons member members ih =>
    obtain ⟨fields, own, others, r, -, -, second, rfl⟩ := compileMembers_cons_ok ran
    intro part member
    rcases List.mem_append.mp member with inOwn | inOthers
    · rw [Option.mem_toList, Option.map_eq_some_iff] at inOwn
      obtain ⟨joined, -, rfl⟩ := inOwn
      exact joined.isChoice_memberOf_and
    · exact ih second part inOthers

/-- A document that stands alone or in a chain means the conjunction of its fields. -/
theorem Means.joinFields {fields : Fields} {parts : List Condition} {p q : Placeholders}
    {questions : Fields} {verdicts : (Test → Bool) → List Bool}
    (means : Means p q questions verdicts parts)
    (ran : (compileFields (fields.length > 1) fields).runFrom p = (.ok parts, q)) :
    Means p q questions (fun truth => (Connective.and.verdict? (verdicts truth)).toList)
      (Condition.join .and parts).toList := by
  refine means.join .and fun _ several => ?_
  -- Where there are several parts there are several fields, and each part was compiled as one
  -- that has siblings.
  have fewer := length_compileFields ran
  have siblings : decide (fields.length > 1) = true := by simp; omega
  rw [siblings] at ran
  exact bare_compileFields ran

theorem means_question {key : String} {value : Document} {predicate : Predicate}
    {p q : Placeholders} (ran : (compileQuestion (key, value)).runFrom p = (.ok predicate, q)) :
    Means p q [(key, value)] (fun truth => [Query.holds truth (.ofText key) value])
      [.test predicate] where
  ran := .single ran
  grouped := by simp [Condition.Grouped]
  verdicts later truth := by
    obtain ⟨_, -, asks⟩ := compileQuestion_asks ran later
    simp [Condition.holdEach, Condition.holds, asks.holds]

mutual

theorem means_compileFields {siblings : Bool} : ∀ (fields : Fields) {parts : List Condition}
    {p q : Placeholders}, (compileFields siblings fields).runFrom p = (.ok parts, q) →
      Means p q (Query.questionsOfFields fields) (Query.verdictsOfFields · fields) parts
  | [], parts, p, q, ran => by
    rw [compileFields, runFrom_pure] at ran
    cases ran
    exact .nil p
  | (key, value) :: rest, parts, p, q, ran => by
    obtain ⟨part, others, r, first, second, rfl⟩ := compileFields_cons_ok ran
    have head := means_compileField key value first
    have tail := means_compileFields rest second
    simp only [Query.questionsOfFields, Query.verdictsOfFields]
    refine .append ?_ tail
    -- The siblings decide about parentheses, and parentheses change nothing.
    cases siblings with
    | false => exact head
    | true =>
      simp only [if_true, Option.toList_map]
      exact head.map Condition.groups_besideSiblings

theorem means_compileField : ∀ (key : String) (value : Document) {part : Option Condition}
    {p q : Placeholders}, (compileField key value).runFrom p = (.ok part, q) →
      Means p q (Query.questionsOfField key value)
        (fun truth => (Query.verdictOfField? truth key value).toList) part.toList
  | key, value, part, p, q, ran => by
    have named := Connective.ofKey?_eq_named? key
    cases isChain : Connective.ofKey? key with
    | none =>
      obtain ⟨predicate, asked, rfl⟩ := compileField_question_ok ran isChain
      rw [isChain] at named
      have questions : Query.questionsOfField key value = [(key, value)] := by
        rw [Query.questionsOfField.eq_def, ← named]
      simp only [questions, Query.verdictOfField?, ← named, Option.toList_some]
      exact means_question asked
    | some connective =>
      obtain ⟨members, parts, rfl, listed, rfl⟩ := compileField_chain_ok ran isChain
      have inner := means_compileMembers connective members listed
      rw [isChain] at named
      simp only [Query.questionsOfField, Query.verdictOfField?, ← named]
      refine inner.join connective fun isAnd _ => ?_
      -- Alternatives that are members of a conjunction were put in parentheses.
      subst isAnd
      exact bare_compileMembers listed

theorem means_compileMembers (connective : Connective) : ∀ (members : List Document)
    {parts : List Condition} {p q : Placeholders},
    (compileMembers connective members).runFrom p = (.ok parts, q) →
      Means p q (Query.questionsOfMembers members) (Query.verdictsOfMembers · members) parts
  | [], parts, p, q, ran => by
    rw [compileMembers, runFrom_pure] at ran
    cases ran
    exact .nil p
  | member :: members, parts, p, q, ran => by
    obtain ⟨fields, own, others, r, rfl, first, second, rfl⟩ := compileMembers_cons_ok ran
    have head := means_compileFields fields first
    have tail := means_compileMembers connective members second
    simp only [Query.questionsOfMembers, Query.verdictsOfMembers]
    refine .append ?_ tail
    -- A member without a question has no part, and is no part of the chain.
    rw [Option.toList_map]
    exact (head.joinFields first).map (Condition.groups_memberOf connective)

end

/-! ### What a condition means -/

theorem means_compileCondition {query : Document} {condition : Option Condition}
    {p q : Placeholders} (ran : (compileCondition query).runFrom p = (.ok condition, q)) :
    Means p q (Query.questions query) (fun truth => (Query.verdict? truth query).toList)
      condition.toList := by
  obtain ⟨fields, parts, rfl, fieldsRan, rfl⟩ := compileCondition_ok ran
  exact (means_compileFields fields fieldsRan).joinFields fieldsRan

/-- What parts of a condition stand for in some placeholders: the tests in order, and a verdict for
each part. The text of such parts can be read. -/
structure Condition.StandFor (r : Placeholders) (parts : List Condition) (tests : List Test)
    (verdicts : (Test → Bool) → List Bool) : Prop where
  grouped : ∀ part ∈ parts, part.Grouped
  spelled : ∀ predicate ∈ predicatesOf parts, predicate.IsSpelled
  tests : ((predicatesOf parts).map Predicate.atom).mapM (Predicate.resolve? r) = some tests
  verdicts : ∀ truth, holdEach (r.truth truth) parts = verdicts truth

/-- What was compiled from questions on well-formed paths stands for their tests, then and later. -/
theorem Means.standFor {p q r : Placeholders} {questions : Fields}
    {verdicts : (Test → Bool) → List Bool} {parts : List Condition}
    (means : Means p q questions verdicts parts)
    (wellFormed : ∀ question ∈ questions, WellFormedPath question.1) (later : q ≤ r) :
    ∃ tests, (questions.mapM fun (path, value) => Query.test? (.ofText path) value) = some tests ∧
      Condition.StandFor r parts tests verdicts := by
  obtain ⟨tests, asked, resolved⟩ := questions_tests means.ran later
  exact ⟨tests, asked, means.grouped, questions_spelled wellFormed means.ran, resolved,
    means.verdicts later⟩

/-- The text of a condition is read as a formula that has these tests, in order, with tokens
resolved through the placeholders, and this truth. -/
def ReadsAs (r : Placeholders) (text : String) (tests : List Test)
    (holds : (Test → Bool) → Bool) : Prop :=
  ∃ formula, readCondition text = some formula ∧
    formula.tests.mapM (Predicate.resolve? r) = some tests ∧
    ∀ truth, formula.holds (r.truth truth) = holds truth

theorem Condition.StandFor.readsAs {r : Placeholders} {condition : Condition}
    {tests : List Test} {verdicts : (Test → Bool) → List Bool} {holds : (Test → Bool) → Bool}
    (stand : StandFor r [condition] tests verdicts)
    (verdict : ∀ truth, verdicts truth = [holds truth]) :
    ReadsAs r condition.text tests holds := by
  obtain ⟨grouped, spelled, resolved, held⟩ := stand
  simp only [predicatesOf, List.append_nil] at spelled resolved
  obtain ⟨formula, read, formulaTests, formulaHolds⟩ :=
    readCondition_text condition (grouped condition List.mem_cons_self) spelled
  refine ⟨formula, read, ?_, fun truth => ?_⟩
  · rw [formulaTests, resolved]
  · have same := held truth
    rw [verdict truth] at same
    rw [formulaHolds]
    exact (List.cons.inj same).1

/-- A compiled condition is empty if its query asks for nothing. Otherwise its text is read as a
formula with the tests of the query, in order, and with its verdict whichever tests are true.
Placeholders that are registered later change nothing of it. -/
theorem readCondition_compileCondition {query : Document} {p q r : Placeholders}
    {condition : Option Condition} (wellFormed : Query.WellFormed query)
    (ran : (compileCondition query).runFrom p = (.ok condition, q)) (later : q ≤ r) :
    (Condition.textOrEmpty condition = "" ∧ Query.questions query = []) ∨
      ∃ formula tests, readCondition (Condition.textOrEmpty condition) = some formula ∧
        Query.tests? query = some tests ∧
        formula.tests.mapM (Predicate.resolve? r) = some tests ∧
        ∀ truth, Query.verdict? truth query = some (formula.holds (r.truth truth)) := by
  have means := means_compileCondition ran
  cases condition with
  | none =>
    -- Without a predicate nothing was compiled, so nothing was asked.
    left
    refine ⟨rfl, ?_⟩
    cases questions : Query.questions query with
    | nil => rfl
    | cons =>
      have threaded := means.ran
      rw [questions] at threaded
      cases threaded
  | some condition =>
    -- The reader finds the predicates, and these stand for the tests.
    right
    obtain ⟨tests, asked, stand⟩ := means.standFor wellFormed later
    obtain ⟨formula, read, resolved, holds⟩ :=
      stand.readsAs fun truth => (stand.verdicts truth).symm
    refine ⟨formula, tests, read, asked, resolved, fun truth => ?_⟩
    rw [holds]
    exact Option.toList_eq_singleton_iff.mp (stand.verdicts truth).symm

/-- Compilation keeps the meaning of a query, whatever was registered before it: the text is
empty if nothing is asked, and otherwise is read as a formula that has the tests of the query in
order, with tokens resolved through the placeholders after compilation, and the verdict of the
query under every assignment of truth to tests. -/
theorem compileCondition_preserves_meaning {query : Document} {p q : Placeholders}
    {condition : Option Condition} (wellFormed : Query.WellFormed query)
    (ran : (compileCondition query).runFrom p = (.ok condition, q)) :
    (Condition.textOrEmpty condition = "" ∧ Query.questions query = []) ∨
      ∃ formula tests, readCondition (Condition.textOrEmpty condition) = some formula ∧
        Query.tests? query = some tests ∧
        formula.tests.mapM (Predicate.resolve? q) = some tests ∧
        ∀ truth, Query.verdict? truth query = some (formula.holds (q.truth truth)) :=
  readCondition_compileCondition wellFormed ran (le_refl q)

/-- An attribute is null, or its first element does not begin with a title, what stands beside it
begins with the text of a list and a third one is absent. -/
def nullOrUntitled : Document :=
  .object [("$or", .array [.object [("a", .null)],
    .object [("a[0]", .object [("$not", .object [("$beginsWith", .string "Dr")])]),
      ("b", .object [("$beginsWith", .array [.bool true, .string "\n"])]),
      ("c", .object [("$exists", .string "")])]])]

theorem nullOrUntitled_preserves_meaning :
    ∃ condition q formula,
      (compileCondition nullOrUntitled).runFrom {} = (.ok condition, q) ∧
        readCondition (Condition.textOrEmpty condition) = some formula ∧
        formula.tests.mapM (Predicate.resolve? q) = some [
          .compare (.ofText "a") .eq (.null true),
          .beginsWith (.ofText "a[0]") (.string "Dr"),
          .beginsWith (.ofText "b") (.string "[true,\"\\n\"]"),
          .absent (.ofText "c")] ∧
        ∀ truth, Query.verdict? truth nullOrUntitled = some (formula.holds (q.truth truth)) := by
  have paths : (Query.questions nullOrUntitled).map Prod.fst = ["a", "a[0]", "b", "c"] := rfl
  have wellFormed : Query.WellFormed nullOrUntitled := by
    have each : ∀ path ∈ ["a", "a[0]", "b", "c"], WellFormedPath path := by decide +kernel
    exact fun question asked => each _ (paths ▸ List.mem_map_of_mem asked)
  have succeeds : ((compileCondition nullOrUntitled).runFrom {}).1.isOk = true := by
    decide +kernel
  obtain ⟨condition, q, ran⟩ := runFrom_ok_of_isOk succeeds
  rcases compileCondition_preserves_meaning wellFormed ran with ⟨-, nothing⟩ | meaning
  · cases nothing
  · obtain ⟨formula, tests, read, asked, resolved, verdicts⟩ := meaning
    refine ⟨condition, q, formula, ran, read, ?_, verdicts⟩
    rw [resolved, ← asked]
    decide +kernel

end DocQuery
