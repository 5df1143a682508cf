import DocQuery.Database
import DocQuery.Proofs.RequestTokens

/-!
# DocQuery.Proofs.FilterMeaning

Filters are conjoined, and a guarded write conjoins them with its guard.

## Proof strategy

What parts of a condition stand for (`Condition.StandFor`) is kept when parts are put side by
side, in parentheses or in a conjunction. Filters are compiled one after another, and each stands
for its query in all placeholders that come later, so their conjunction does too. A guard tests
every attribute of the key by its whole name.

## Main results

`Condition.standFor_filters`: compiled filters stand for the conjunction of their queries.

`UpdateBuilder.standFor_build`: the condition of a built write stands for guard and filters.
-/

namespace DocQuery

open Compile

/-! ### Verdicts of several documents -/

theorem results_eq_nil_iff {α β : Type} {read : α → Option β} {items : List α} {results : List β}
    (each : items.mapM read = some results) : results = [] ↔ items = [] := by
  cases items with
  | nil =>
    cases each
    simp
  | cons item rest =>
    simp only [List.mapM_cons, Option.bind_eq_bind, Option.bind_eq_some_iff, Option.pure_def,
      Option.some.injEq] at each
    obtain ⟨_, -, _, -, rfl⟩ := each
    simp

namespace Query

/-- The tests of several documents, in order. -/
def testsOfAll? (queries : List Document) : Option (List Test) :=
  (queries.flatMap questions).mapM fun (path, value) => test? (.ofText path) value

/-- The verdicts of the documents that hold a question. -/
def verdictsOfAll (truth : Test → Bool) (queries : List Document) : List Bool :=
  queries.filterMap (verdict? truth)

theorem testsOfAll?_cons {query : Document} {rest : List Document} {tests more : List Test}
    (first : tests? query = some tests) (others : testsOfAll? rest = some more) :
    testsOfAll? (query :: rest) = some (tests ++ more) := by
  simp only [tests?, testsOfAll?] at first others ⊢
  rw [List.flatMap_cons, List.mapM_append, first, others]
  rfl

theorem testsOfAll?_eq_nil_iff {queries : List Document} {tests : List Test}
    (asked : testsOfAll? queries = some tests) :
    tests = [] ↔ ∀ query ∈ queries, questions query = [] := by
  rw [results_eq_nil_iff asked, List.flatMap_eq_nil_iff]

theorem verdictsOfAll_cons (truth : Test → Bool) (query : Document) (rest : List Document) :
    verdictsOfAll truth (query :: rest) =
      (verdict? truth query).toList ++ verdictsOfAll truth rest := by
  rw [verdictsOfAll, List.filterMap_cons]
  cases verdict? truth query <;> rfl

end Query

/-- The verdict of a conjunction counts for one in a larger conjunction. -/
theorem Connective.verdict?_and_append (first second : List Bool) :
    Connective.and.verdict? ((Connective.and.verdict? first).toList ++ second) =
      Connective.and.verdict? (first ++ second) := by
  cases first with
  | nil => rfl
  | cons verdict rest => simp [verdict?, fold, Bool.and_assoc]

theorem Connective.verdict?_append_and (first second : List Bool) :
    Connective.and.verdict? (first ++ (Connective.and.verdict? second).toList) =
      Connective.and.verdict? (first ++ second) := by
  cases second with
  | nil => rfl
  | cons verdict rest => cases first <;> simp [verdict?, fold]

theorem Connective.verdict?_and_toList (verdict : Option Bool) :
    Connective.and.verdict? verdict.toList = verdict := by
  cases verdict <;> simp [verdict?, fold]

/-! ### Parts put together -/

namespace Condition

theorem groups_group : Groups Condition.group where
  predicates _ := rfl
  holds _ _ := rfl
  grouped _ grouped := grouped

theorem conjoin_eq_none_iff {first second : Option Condition} :
    conjoin first second = none ↔ first = none ∧ second = none := by
  cases first <;> cases second <;> simp [conjoin]

theorem foldl_conjoin_eq_none_iff (conditions : List (Option Condition))
    (previous : Option Condition) :
    conditions.foldl conjoin previous = none ↔
      previous = none ∧ ∀ condition ∈ conditions, condition = none := by
  induction conditions generalizing previous with
  | nil => simp
  | cons condition rest ih =>
    rw [List.foldl_cons, ih, conjoin_eq_none_iff, List.forall_mem_cons, and_assoc]

mutual

/-- A condition without an empty chain holds a predicate. -/
theorem predicates_ne_nil : ∀ condition : Condition, condition.Grouped →
    condition.predicates ≠ []
  | .test predicate, _ => List.cons_ne_nil predicate []
  | .chain _ parts, grouped => predicatesOf_ne_nil parts grouped.1 grouped.2
  | .group condition, grouped => predicates_ne_nil condition grouped

theorem predicatesOf_ne_nil {connective : Connective} : ∀ parts : List Condition, parts ≠ [] →
    GroupedIn connective parts → predicatesOf parts ≠ []
  | [], nonempty, _ => absurd rfl nonempty
  | part :: _, _, grouped => fun empty =>
    predicates_ne_nil part grouped.1 (List.append_eq_nil_iff.mp empty).1

end

namespace StandFor

variable {r : Placeholders} {parts rest : List Condition} {tests more : List Test}
  {verdicts others : (Test → Bool) → List Bool}

theorem nil (r : Placeholders) : StandFor r [] [] fun _ => [] where
  grouped := by simp
  spelled := by simp [predicatesOf]
  tests := rfl
  verdicts _ := rfl

theorem append (first : StandFor r parts tests verdicts) (second : StandFor r rest more others) :
    StandFor r (parts ++ rest) (tests ++ more) fun truth => verdicts truth ++ others truth where
  grouped part member := (List.mem_append.mp member).elim (first.grouped part) (second.grouped part)
  spelled := by
    rw [predicatesOf_append]
    exact List.forall_mem_append.mpr ⟨first.spelled, second.spelled⟩
  tests := by
    rw [predicatesOf_append, List.map_append, List.mapM_append, first.tests, second.tests]
    rfl
  verdicts truth := by rw [holdEach_append, first.verdicts, second.verdicts]

/-- Parentheses change nothing of what parts stand for. -/
theorem map {place : Condition → Condition} (stand : StandFor r parts tests verdicts)
    (groups : Groups place) : StandFor r (parts.map place) tests verdicts where
  grouped := by
    simp only [List.mem_map]
    rintro _ ⟨part, member, rfl⟩
    exact groups.grouped part (stand.grouped part member)
  spelled := by
    rw [predicatesOf_map groups]
    exact stand.spelled
  tests := by
    rw [predicatesOf_map groups]
    exact stand.tests
  verdicts truth := by rw [holdEach_map groups, stand.verdicts]

/-- Parts none of which is a bare chain of alternatives may be conjoined. -/
theorem joinAnd (stand : StandFor r parts tests verdicts)
    (bare : ∀ part ∈ parts, part.isChoice = false) :
    StandFor r (join .and parts).toList tests
      fun truth => (Connective.and.verdict? (verdicts truth)).toList where
  grouped _ member :=
    grouped_join stand.grouped (fun _ _ => bare) (Option.mem_toList.mp member)
  spelled := by
    rw [predicatesOf_join]
    exact stand.spelled
  tests := by
    rw [predicatesOf_join]
    exact stand.tests
  verdicts truth := by rw [holdEach_join, stand.verdicts]

theorem congr {same : (Test → Bool) → List Bool} (stand : StandFor r parts tests verdicts)
    (agree : ∀ truth, verdicts truth = same truth) : StandFor r parts tests same where
  grouped := stand.grouped
  spelled := stand.spelled
  tests := stand.tests
  verdicts truth := (stand.verdicts truth).trans (agree truth)

/-- Two conditions that may be missing stand for the conjunction of what they stand for. -/
theorem conjoin {first second : Option Condition} {one two : (Test → Bool) → Option Bool}
    (left : StandFor r first.toList tests fun truth => (one truth).toList)
    (right : StandFor r second.toList more fun truth => (two truth).toList) :
    StandFor r (Condition.conjoin first second).toList (tests ++ more) fun truth =>
      (Connective.and.verdict? ((one truth).toList ++ (two truth).toList)).toList := by
  have both := left.append right
  cases first with
  | none =>
    -- Only the second counts, and it is not put in parentheses.
    refine both.congr fun truth => ?_
    have nothing : (one truth).toList = [] := (left.verdicts truth).symm
    rw [nothing, List.nil_append, Connective.verdict?_and_toList]
  | some first =>
    cases second with
    | none =>
      refine both.congr fun truth => ?_
      have nothing : (two truth).toList = [] := (right.verdicts truth).symm
      rw [nothing, List.append_nil, Connective.verdict?_and_toList]
    | some second =>
      exact (both.map groups_group).joinAnd (by simp [isChoice])

/-- A condition that may be missing is missing exactly if it stands for no test. -/
theorem eq_none_iff {condition : Option Condition}
    (stand : StandFor r condition.toList tests verdicts) : condition = none ↔ tests = [] := by
  rw [results_eq_nil_iff stand.tests, List.map_eq_nil_iff]
  cases condition with
  | none => simp [predicatesOf]
  | some condition =>
    have nonempty := predicates_ne_nil condition (stand.grouped condition List.mem_cons_self)
    simp [predicatesOf, nonempty]

/-- A conjunction that is there is read as one whose verdicts are all true. -/
theorem readsAs_all {condition : Condition}
    (stand : StandFor r [condition] tests
      fun truth => (Connective.and.verdict? (verdicts truth)).toList) :
    ReadsAs r condition.text tests fun truth => (verdicts truth).all id := by
  refine stand.readsAs fun truth => ?_
  have single := stand.verdicts truth
  cases held : verdicts truth with
  | nil => rw [held] at single; cases single
  | cons verdict rest => rfl

end StandFor

end Condition

/-! ### Filters -/

section Filters

variable {filters : List Document} {conditions : List (Option Condition)}
  {previous condition : Option Condition} {p q r : Placeholders}

/-- Filters on top of an earlier condition stand for it and for all their queries. -/
theorem Condition.StandFor.conjoin_filters
    (wellFormed : ∀ filter ∈ filters, Query.WellFormed filter)
    (threaded : Threaded compileCondition p filters conditions q) (later : q ≤ r)
    {tests : List Test} {verdict : (Test → Bool) → Option Bool}
    (before : StandFor r previous.toList tests fun truth => (verdict truth).toList) :
    ∃ more, Query.testsOfAll? filters = some more ∧
      StandFor r (conditions.foldl Condition.conjoin previous).toList (tests ++ more)
        fun truth => (Connective.and.verdict?
          ((verdict truth).toList ++ Query.verdictsOfAll truth filters)).toList := by
  induction threaded generalizing previous tests verdict with
  | nil p =>
    refine ⟨[], rfl, ?_⟩
    rw [List.append_nil]
    refine before.congr fun truth => ?_
    rw [Query.verdictsOfAll, List.filterMap_nil, List.append_nil, Connective.verdict?_and_toList]
  | cons head tail ih =>
    obtain ⟨first, rest⟩ := List.forall_mem_cons.mp wellFormed
    have grown := le_trans (tail.le composed_compileCondition) later
    obtain ⟨own, asked, stand⟩ := (means_compileCondition head).standFor first grown
    -- The condition so far stands for the earlier filters, and the next one joins it.
    obtain ⟨more, others, whole⟩ := ih rest later (before.conjoin stand)
    refine ⟨own ++ more, Query.testsOfAll?_cons asked others, ?_⟩
    rw [← List.append_assoc]
    refine whole.congr fun truth => ?_
    rw [Connective.verdict?_and_append, Query.verdictsOfAll_cons, List.append_assoc]

/-- Filters that are compiled from the start stand for the conjunction of their queries. -/
theorem Condition.standFor_filters
    (wellFormed : ∀ filter ∈ filters, Query.WellFormed filter)
    (threaded : Threaded compileCondition p filters conditions q) (later : q ≤ r) :
    ∃ tests, Query.testsOfAll? filters = some tests ∧
      StandFor r (conditions.foldl Condition.conjoin none).toList tests
        fun truth => (Connective.and.verdict? (Query.verdictsOfAll truth filters)).toList := by
  have start : StandFor r (none : Option Condition).toList []
      fun _ => (none : Option Bool).toList := .nil r
  exact start.conjoin_filters wellFormed threaded later

end Filters

/-! ### Guards -/

namespace UpdateBuilder

/-- The attributes of the key, in document order. -/
def keyAttributes (b : UpdateBuilder) : List String :=
  (b.key.fields?.getD []).map Prod.fst

/-- What the mode asks of the key: an update that all its attributes are there, an insert that none
of them is. Each attribute is one name, whatever characters it has. -/
def guardTests (b : UpdateBuilder) : List Test :=
  let paths := b.keyAttributes.map fun name => [⟨name, ""⟩]
  match b.mode with
  | .update => paths.map .present
  | .upsert => []
  | .insert => paths.map .absent

end UpdateBuilder

section Guards

variable {p q r : Placeholders}

theorem composed_guardAttributes (test : Path → Predicate) (fields : Fields) :
    (guardAttributes test fields).Composed := by
  induction fields with
  | nil => exact Naming.composed_pure []
  | cons field rest ih =>
    refine Naming.composed_bind (Naming.composed_nameAttribute field.1) fun token => ?_
    exact Naming.composed_bind ih fun tests => Naming.composed_pure _

/-- A test of one attribute stands for the test of the name that its token stands for. -/
theorem standFor_guardAttributes (test : Path → Predicate) (expected : Path → Test)
    (spelled : ∀ path, path.IsSpelled → (test path).IsSpelled)
    (asks : ∀ path target, path.resolve? r = some target →
      Asks r (test path) (expected target) fun truth => truth (expected target))
    (fields : Fields) (p : Placeholders) (later : (guardAttributes test fields p).2 ≤ r) :
    Condition.StandFor r (guardAttributes test fields p).1
      (fields.map fun field => expected [⟨field.1, ""⟩])
      fun truth => fields.map fun field => truth (expected [⟨field.1, ""⟩]) := by
  induction fields generalizing p with
  | nil => exact .nil r
  | cons field rest ih =>
    obtain ⟨name, value⟩ := field
    have tail := ih (Naming.nameAttribute name p).2 later
    rw [guardAttributes_cons]
    -- The first token outlives the naming of the other attributes.
    have grown :=
      ((composed_guardAttributes test rest).registers (Naming.nameAttribute name p).2).le
    have bound := Placeholders.names_of_le (le_trans grown later)
      (Naming.nameAttribute_bound name p)
    have resolved : Path.resolve? r [⟨(Naming.nameAttribute name p).1, ""⟩] =
        some [⟨name, ""⟩] := by
      simp [Path.resolve?, bound]
    obtain ⟨ownTest, ownTruth⟩ := asks _ _ resolved
    have ownSpelled := guardAttributes_spelled spelled [(name, value)] p
    have own : Condition.StandFor r [.test (test [⟨(Naming.nameAttribute name p).1, ""⟩])]
        [expected [⟨name, ""⟩]] fun truth => [truth (expected [⟨name, ""⟩])] :=
      { grouped := by simp [Condition.Grouped]
        spelled := ownSpelled
        tests := by simp [Condition.predicatesOf, Condition.predicates, ownTest]
        verdicts := fun truth => by simp [Condition.holdEach, Condition.holds, ownTruth] }
    exact own.append tail

theorem isChoice_guardAttributes (test : Path → Predicate) (fields : Fields) (p : Placeholders) :
    ∀ guard ∈ (guardAttributes test fields p).1, guard.isChoice = false := by
  induction fields generalizing p with
  | nil => exact List.forall_mem_nil _
  | cons field rest ih =>
    rw [guardAttributes_cons]
    exact List.forall_mem_cons.mpr ⟨rfl, ih _⟩

theorem isChoice_compileGuard (b : UpdateBuilder) (p : Placeholders) :
    ∀ guard ∈ (b.compileGuard p).1, guard.isChoice = false := by
  unfold UpdateBuilder.compileGuard
  cases b.mode.guard with
  | none => exact List.forall_mem_nil _
  | some test => exact isChoice_guardAttributes test _ p

theorem standFor_compileGuard (b : UpdateBuilder) (later : (b.compileGuard p).2 ≤ r) :
    Condition.StandFor r (b.compileGuard p).1 b.guardTests fun truth => b.guardTests.map truth := by
  have names : b.keyAttributes = (b.key.fields?.getD []).map Prod.fst := rfl
  unfold UpdateBuilder.compileGuard at later ⊢
  cases mode : b.mode with
  | upsert =>
    simp only [UpdateBuilder.guardTests, mode, WriteMode.guard]
    exact .nil r
  | update =>
    simp only [mode, WriteMode.guard] at later ⊢
    have stand := standFor_guardAttributes .present .present (fun _ spelled => spelled)
      (fun _ _ resolved => .of_resolve (by simp [Predicate.resolve?, resolved])) _ p later
    simpa [UpdateBuilder.guardTests, mode, names, Function.comp_def] using stand
  | insert =>
    simp only [mode, WriteMode.guard] at later ⊢
    have stand := standFor_guardAttributes .absent .absent (fun _ spelled => spelled)
      (fun _ _ resolved => .of_resolve (by simp [Predicate.resolve?, resolved])) _ p later
    simpa [UpdateBuilder.guardTests, mode, names, Function.comp_def] using stand

end Guards

/-! ### Conditions of writes -/

section Writes

variable {guards : List Condition} {filter : Option Condition} {filters : List Document}
  {p q r : Placeholders} {tests more : List Test}

/-- A guard of bare tests beside a filter in parentheses stands for all of them. -/
theorem standFor_condition {asked : List Test} {verdict : (Test → Bool) → Option Bool}
    (guarded : Condition.StandFor r guards asked fun truth => asked.map truth)
    (bare : ∀ guard ∈ guards, guard.isChoice = false)
    (filtered : Condition.StandFor r filter.toList more fun truth => (verdict truth).toList) :
    Condition.StandFor r (UpdateBuilder.condition guards filter).toList (asked ++ more)
      fun truth =>
        (Connective.and.verdict? (asked.map truth ++ (verdict truth).toList)).toList := by
  have beside := (guarded.append (filtered.map Condition.groups_group)).joinAnd <| by
    intro part member
    rcases List.mem_append.mp member with guard | grouped
    · exact bare part guard
    · obtain ⟨_, -, rfl⟩ := List.mem_map.mp grouped
      rfl
  cases guards with
  | nil =>
    -- Without a guard the filter is not put in parentheses.
    have unasked : ∀ truth : Test → Bool, asked.map truth = [] :=
      fun truth => (guarded.verdicts truth).symm
    refine (guarded.append filtered).congr fun truth => ?_
    rw [unasked, List.nil_append, Connective.verdict?_and_toList]
  | cons guard rest => cases filter <;> simpa [UpdateBuilder.condition] using beside

/-- A document whose key is accepted has an attribute in it. -/
theorem UpdateBuilder.keyAttributes_ne_nil {b : UpdateBuilder} {key : Item}
    (keyed : keyOfDocument b.key = .ok key) : b.keyAttributes ≠ [] := by
  unfold UpdateBuilder.keyAttributes
  cases document : b.key with
  | object fields =>
    rw [document] at keyed
    cases fields with
    | nil => cases keyed
    | cons => exact List.cons_ne_nil _ _
  | _ => rw [document] at keyed; cases keyed

/-- Only an upsert asks nothing of its key. -/
theorem UpdateBuilder.guardTests_eq_nil_iff {b : UpdateBuilder} {key : Item}
    (keyed : keyOfDocument b.key = .ok key) : b.guardTests = [] ↔ b.mode = .upsert := by
  have attributes := keyAttributes_ne_nil keyed
  unfold UpdateBuilder.guardTests
  cases b.mode <;> simp [attributes]

/-- A built write stands for its guard and its filters. -/
theorem UpdateBuilder.standFor_build {b : UpdateBuilder} {request : UpdateRequest}
    (wellFormed : ∀ filter ∈ b.filters, Query.WellFormed filter)
    (built : b.build = .ok request) :
    (b.guardTests = [] ↔ b.mode = .upsert) ∧
      ∃ (condition : Option Condition) (tests : List Test),
        request.condition = condition.map Condition.text ∧
          Query.testsOfAll? b.filters = some tests ∧
          Condition.StandFor { names := request.names, values := request.values }
            condition.toList (b.guardTests ++ tests) fun truth => (Connective.and.verdict?
              (b.guardTests.map truth ++ Query.verdictsOfAll truth b.filters)).toList := by
  obtain ⟨key, update, filter, q, r, keyed, -, filterRan, rfl⟩ := UpdateBuilder.build_ok built
  obtain ⟨conditions, threaded, rfl⟩ := compileFiltersAfter_ok_iff.mp filterRan
  obtain ⟨tests, asked, filtered⟩ :=
    Condition.standFor_filters wellFormed threaded (le_refl r)
  -- The tokens of the guard are still bound after the filters were compiled.
  have guarded := standFor_compileGuard b (threaded.le composed_compileCondition)
  refine ⟨guardTests_eq_nil_iff keyed, _, tests, rfl, asked, ?_⟩
  refine (standFor_condition guarded (isChoice_compileGuard b q) filtered).congr fun truth => ?_
  rw [Connective.verdict?_append_and]

end Writes

/-- Filters and guards are conjoined. Filters that compile one after another compile together, to
nothing exactly if each of them does, and otherwise to a text that is read as the conjunction of
their queries. The condition of a built write is read, through the placeholders of the request, as
the conjunction of its filters and of what its mode asks of every key attribute; it is missing
exactly if the write is an upsert and no filter asks anything. -/
theorem filters_and_guards_conjoin {filters : List Document}
    (wellFormed : ∀ filter ∈ filters, Query.WellFormed filter) :
    (∀ (p q : Placeholders) (conditions : List (Option Condition)),
      Threaded compileCondition p filters conditions q →
      ∃ condition tests, (compileFilters filters).runFrom p = (.ok condition, q) ∧
        (condition = none ↔ ∀ part ∈ conditions, part = none) ∧
        Query.testsOfAll? filters = some tests ∧
        ∀ whole, condition = some whole →
          ReadsAs q whole.text tests fun truth => (Query.verdictsOfAll truth filters).all id) ∧
    ∀ (b : UpdateBuilder) (request : UpdateRequest),
      b.filters = filters → b.build = .ok request →
      ∃ tests, Query.testsOfAll? filters = some tests ∧
        (request.condition = none ↔
          b.mode = .upsert ∧ ∀ filter ∈ filters, Query.questions filter = []) ∧
        ∀ text, request.condition = some text →
          ReadsAs { names := request.names, values := request.values } text (b.guardTests ++ tests)
            fun truth => b.guardTests.all truth && (Query.verdictsOfAll truth filters).all id := by
  constructor
  · intro p q conditions threaded
    obtain ⟨tests, asked, stand⟩ := Condition.standFor_filters wellFormed threaded (le_refl q)
    refine ⟨_, tests, compileFiltersAfter_ok_iff.mpr ⟨conditions, threaded, rfl⟩, ?_, asked, ?_⟩
    · rw [Condition.foldl_conjoin_eq_none_iff, and_iff_right rfl]
    · intro whole isSome
      rw [isSome] at stand
      exact stand.readsAs_all
  · rintro b request rfl built
    obtain ⟨guarded, condition, tests, written, asked, stand⟩ := b.standFor_build wellFormed built
    refine ⟨tests, asked, ?_, fun text isSome => ?_⟩
    · rw [written, Option.map_eq_none_iff, stand.eq_none_iff, List.append_eq_nil_iff, guarded,
        Query.testsOfAll?_eq_nil_iff asked]
    · rw [written, Option.map_eq_some_iff] at isSome
      obtain ⟨condition, rfl, rfl⟩ := isSome
      simpa [List.all_append, List.all_map] using stand.readsAs_all

/-- A test, a filter that asks nothing and a choice. -/
def testAndChoice : List Document :=
  [.object [("a", .null)], .object [],
    .object [("$or", .array [.object [("a.b", .bool true)], .object [("a", .bool false)]])]]

/-- An insert whose key attribute is spelled like the path of a filter. -/
def dottedInsert : UpdateBuilder :=
  let insert := Table.insert ⟨"t"⟩ (.object [("a.b", .string "x")]) (.object [("a", .null)])
  testAndChoice.foldl UpdateBuilder.filter insert

theorem testAndChoice_and_dottedInsert_conjoin :
    (∃ condition q tests, (compileFilters testAndChoice).runFrom {} = (.ok (some condition), q) ∧
      Query.testsOfAll? testAndChoice = some tests ∧
      ReadsAs q condition.text tests
        fun truth => (Query.verdictsOfAll truth testAndChoice).all id) ∧
    ∃ request text tests, dottedInsert.build = .ok request ∧ request.condition = some text ∧
      Query.testsOfAll? testAndChoice = some tests ∧
      ReadsAs { names := request.names, values := request.values } text
        (.absent [⟨"a.b", ""⟩] :: tests) fun truth =>
          truth (.absent [⟨"a.b", ""⟩]) && (Query.verdictsOfAll truth testAndChoice).all id := by
  have wellFormed : ∀ filter ∈ testAndChoice, Query.WellFormed filter := by
    simp only [testAndChoice, List.forall_mem_cons]
    refine ⟨?_, ?_, ?_, List.forall_mem_nil _⟩
    · simp only [Query.WellFormed, show Query.questions (.object [("a", .null)]) =
        [("a", .null)] from rfl, List.forall_mem_cons]
      exact ⟨by decide +kernel, List.forall_mem_nil _⟩
    · exact List.forall_mem_nil _
    · simp only [Query.WellFormed, show Query.questions (.object [("$or", .array
        [.object [("a.b", .bool true)], .object [("a", .bool false)]])]) =
        [("a.b", .bool true), ("a", .bool false)] from rfl, List.forall_mem_cons]
      exact ⟨by decide +kernel, by decide +kernel, List.forall_mem_nil _⟩
  obtain ⟨together, writes⟩ := filters_and_guards_conjoin wellFormed
  constructor
  · have ran : ∃ condition q,
        (compileFilters testAndChoice).runFrom {} = (.ok (some condition), q) := ⟨_, _, rfl⟩
    obtain ⟨condition, q, ran⟩ := ran
    obtain ⟨conditions, threaded, -⟩ := compileFiltersAfter_ok_iff.mp ran
    obtain ⟨same, tests, again, -, asked, reads⟩ := together {} q conditions threaded
    obtain rfl : same = some condition := by
      rw [ran] at again
      cases again
      rfl
    exact ⟨condition, q, tests, ran, asked, reads condition rfl⟩
  · have succeeds : dottedInsert.build.isOk = true := by decide +kernel
    obtain ⟨request, built⟩ := exists_ok_of_isOk succeeds
    obtain ⟨tests, asked, missing, reads⟩ := writes dottedInsert request rfl built
    -- An insert is no upsert, so its request has a condition.
    have present : request.condition ≠ none := fun isNone => by cases (missing.mp isNone).1
    obtain ⟨text, isSome⟩ := Option.ne_none_iff_exists'.mp present
    have guard : dottedInsert.guardTests = [.absent [⟨"a.b", ""⟩]] := rfl
    have read := reads text isSome
    rw [guard] at read
    exact ⟨request, text, tests, built, isSome, asked, by simpa using read⟩

end DocQuery
