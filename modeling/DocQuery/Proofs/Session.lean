import DocQuery.Compile.Result
import DocQuery.Proofs.ConditionMeaning
import DocQuery.Proofs.ProjectionMeaning
import DocQuery.Proofs.UpdateMeaning

/-!
# DocQuery.Proofs.Session

Operations on the placeholders of a request, in any order.

An operation that fails may have registered something before it failed, and what it has
registered stays. Nothing that was promised is changed by it or by any other operation, and so an
operation that is run once more finds everything in place.
-/

namespace DocQuery

open Compile
open Placeholders (Reaches)

/-! ### Operations -/

inductive Operation where
  | nameText (path : String)
  | nameAttribute (name : String)
  | bindOperand (key : String) (value : Option Document) (whole : Bool)
  | bindDocument (key : String) (document : Document)
  | bindEach (key : String) (documents : List Document)
  | bindValue (key : String) (value : AttributeValue)
  | bindEmptyList
  | compileCondition (query : Document)
  | compileUpdate (document : Document)
  | compileProjection (fields : String)

/-- What an operation returns; its tokens are promised to stand for what was asked for. -/
inductive Outcome where
  | path (path : Path)
  | token (token : Token)
  | tokens (tokens : List Token)
  | condition (condition : Option Condition)
  | update (update : Update)
  | projection (projection : Projection)

def ValueTokens.outcome : ValueTokens → Outcome
  | .single token => .token token
  | .list tokens => .tokens tokens

namespace Operation

def run : Operation → Compile Outcome
  | .nameText path => return .path (← Naming.nameText path)
  | .nameAttribute name => return .token (← Naming.nameAttribute name)
  | .bindOperand key value whole => return (← DocQuery.bindOperand key value whole).outcome
  | .bindDocument key document => return .token (← Naming.bindDocument key document)
  | .bindEach key documents => return .tokens (← Naming.bindEach key documents)
  | .bindValue key value => return .token (← Naming.bindValue key value)
  | .bindEmptyList => return .token (← Naming.bindEmptyList)
  | .compileCondition query => return .condition (← DocQuery.compileCondition query)
  | .compileUpdate document => return .update (← DocQuery.compileUpdate document)
  | .compileProjection fields => return .projection (← DocQuery.compileProjection fields)

/-- The placeholders after an operation, whether or not it has failed. -/
def after (operation : Operation) (p : Placeholders) : Placeholders :=
  (operation.run.runFrom p).2

/-- The placeholders after some operations. -/
def afterAll (operations : List Operation) (p : Placeholders) : Placeholders :=
  operations.foldl (fun q operation => operation.after q) p

/-! ### Promises -/

/-- What an outcome promises of the placeholders `r`: its tokens stand for what the operation
asked for. The token of the empty list stands for `empty`. -/
def Keeps (empty : AttributeValue) (r : Placeholders) : Operation → Outcome → Prop
  | .nameText path, .path name => name.resolve? r = some (.ofText path)
  | .nameAttribute name, .token token => r.names.get? token = some name
  | .bindOperand _ value _, .token token =>
    ∃ document, value = some document ∧ r.values.get? token = some (.ofDocument document)
  | .bindOperand _ value _, .tokens tokens =>
    ∃ items, value = some (.array items) ∧
      tokens.mapM r.values.get? = some (items.map .ofDocument)
  | .bindDocument _ document, .token token => r.values.get? token = some (.ofDocument document)
  | .bindEach _ documents, .tokens tokens =>
    tokens.mapM r.values.get? = some (documents.map .ofDocument)
  | .bindValue _ value, .token token => r.values.get? token = some value
  | .bindEmptyList, .token token =>
    token = emptyListToken ∧ r.values.get? token = some empty
  | .compileCondition query, .condition condition =>
    ∃ tests, Query.tests? query = some tests ∧
      ((Condition.predicatesOf condition.toList).map Predicate.atom).mapM
        (Predicate.resolve? r) = some tests
  | .compileUpdate document, .update update =>
    ∃ changes, Change.ofDocument? empty document = some changes ∧
      (update.map Action.change).mapM (Change.resolve? r) = some changes
  | .compileProjection fields, .projection projection =>
    projection.mapM (Path.resolve? r) = some ((fieldList fields).map .ofText)
  | _, _ => False

/-! ### What one operation does -/

theorem composed_bindOperand (key : String) (value : Option Document) (whole : Bool) :
    (DocQuery.bindOperand key value whole).Composed := by
  unfold DocQuery.bindOperand
  split
  · exact .throw _
  · split
    · exact composed_bindThen _ _ _
    · exact composed_bind (composed_liftM (Naming.composed_bindEach _ _)) fun _ =>
        .pure _
  · exact composed_bindThen _ _ _

theorem composed_run (operation : Operation) : operation.run.Composed := by
  cases operation with
  | nameText path =>
    exact composed_bind (composed_liftM (Naming.composed_nameText path)) fun _ =>
      .pure _
  | nameAttribute name =>
    exact composed_bind (composed_liftM (Naming.composed_nameAttribute name)) fun _ =>
      .pure _
  | bindOperand key value whole =>
    exact composed_bind (composed_bindOperand key value whole) fun _ => .pure _
  | bindDocument key document =>
    exact composed_bindThen key document _
  | bindEach key documents =>
    exact composed_bind (composed_liftM (Naming.composed_bindEach key documents)) fun _ =>
      .pure _
  | bindValue key value =>
    exact composed_bind (composed_liftM (Naming.composed_bindValue key value)) fun _ =>
      .pure _
  | bindEmptyList =>
    exact composed_bind (composed_liftM Naming.composed_bindEmptyList) fun _ =>
      .pure _
  | compileCondition query =>
    exact composed_bind (composed_compileCondition query) fun _ => .pure _
  | compileUpdate document =>
    exact composed_bind (composed_compileUpdate document) fun _ => .pure _
  | compileProjection fields =>
    exact composed_bind (composed_liftM (composed_nameTexts _)) fun _ => .pure _

theorem bindOperand_keeps {key : String} {value : Option Document} {whole : Bool}
    {tokens : ValueTokens} {empty : AttributeValue} {p q r : Placeholders}
    (ran : (DocQuery.bindOperand key value whole).runFrom p = (.ok tokens, q)) (later : q ≤ r) :
    Keeps empty r (.bindOperand key value whole) tokens.outcome := by
  unfold DocQuery.bindOperand at ran
  split at ran
  · cases ran
  next items =>
    -- A list is bound as one value where that is asked for, else element by element.
    split at ran
    · cases ran
      exact ⟨.array items, rfl, Naming.bindDocument_bound key (.array items) p later⟩
    · cases ran
      exact ⟨items, rfl, (Naming.bindEach_binds key items p).bound later⟩
  next document _ =>
    cases ran
    exact ⟨document, rfl, Naming.bindDocument_bound key document p later⟩

/-- A successful operation keeps its promise then and later. -/
theorem run_keeps {operation : Operation} {outcome : Outcome} {p q r : Placeholders}
    (ran : operation.run.runFrom p = (.ok outcome, q)) (later : q ≤ r) :
    operation.Keeps p.emptyList r outcome := by
  cases operation with
  | nameText path =>
    cases ran
    exact Naming.resolve?_nameText path p later
  | nameAttribute name =>
    cases ran
    exact Placeholders.names_of_le later (Naming.nameAttribute_bound name p)
  | bindOperand key value whole =>
    rw [run, runFrom_map_ok] at ran
    obtain ⟨tokens, ran, rfl⟩ := ran
    exact bindOperand_keeps ran later
  | bindDocument key document =>
    cases ran
    exact Naming.bindDocument_bound key document p later
  | bindEach key documents =>
    cases ran
    exact (Naming.bindEach_binds key documents p).bound later
  | bindValue key value =>
    cases ran
    exact Placeholders.values_of_le later (Naming.bindValue_bound key value p)
  | bindEmptyList =>
    -- A seed that binds the token to something else keeps it.
    cases ran
    exact ⟨rfl, Placeholders.values_of_le later (Naming.bindEmptyList_bound p)⟩
  | compileCondition query =>
    -- The expressions that were compiled resolve to what their documents ask for.
    rw [run, runFrom_map_ok] at ran
    obtain ⟨condition, ran, rfl⟩ := ran
    exact questions_tests (means_compileCondition ran).ran later
  | compileUpdate document =>
    rw [run, runFrom_map_ok] at ran
    obtain ⟨update, ran, rfl⟩ := ran
    exact compileUpdate_changes ran later
  | compileProjection fields =>
    cases ran
    exact nameTexts_bound (fieldList fields) p later

/-! ### What any run of operations does -/

theorem reaches_after (operation : Operation) (p : Placeholders) : Reaches p (operation.after p) :=
  operation.composed_run.registers p

theorem reaches_afterAll (operations : List Operation) (p : Placeholders) :
    Reaches p (afterAll operations p) := by
  induction operations generalizing p with
  | nil => exact .refl
  | cons operation rest ih => exact (operation.reaches_after p).trans (ih _)

/-- Nothing that was promised is ever changed. Around an operation, at any point of any run that
starts from some placeholders: entries keep their meaning, every entry that was ever added has the
shape of a token, and whatever the operation returns stands for what was asked for at the end of
the run too. -/
theorem promises_are_kept (start : Placeholders) (before : List Operation)
    (operation : Operation) (later : List Operation) :
    let p := afterAll before start
    let q := operation.after p
    let r := afterAll later q
    p ≤ q ∧ q ≤ r ∧
      (∀ token name, r.names.get? token = some name →
        start.names.get? token = some name ∨ IsNameToken token) ∧
      (∀ token value, r.values.get? token = some value →
        start.values.get? token = some value ∨ IsValueToken token ∨
          (token = emptyListToken ∧ value = .emptyList)) ∧
      ∀ outcome, (operation.run.runFrom p).1 = .ok outcome →
        operation.Keeps start.emptyList r outcome := by
  intro p q r
  have toHere : Reaches start p := reaches_afterAll before start
  have around : Reaches p q := operation.reaches_after p
  have onwards : Reaches q r := reaches_afterAll later q
  have whole : Reaches start r := (toHere.trans around).trans onwards
  refine ⟨around.le, onwards.le, fun token name found => whole.names_origin found,
    fun token value found => whole.values_origin found, fun outcome succeeded => ?_⟩
  -- What the token of the empty list will stand for was settled at the start.
  have ran : operation.run.runFrom p = (.ok outcome, q) := Prod.ext succeeded rfl
  rw [← toHere.emptyList_eq]
  exact run_keeps ran onwards.le

/-- A list is bound where its second element would share a token with a value bound before, in
the middle of a run with a compilation that fails halfway. -/
theorem bindEach_promise_is_kept :
    ∃ outcome, ((Operation.bindEach "a" [.null, .string "x"]).run.runFrom
        (afterAll [.bindDocument "a_1" .null] {})).1 = .ok outcome ∧
      (Operation.bindEach "a" [.null, .string "x"]).Keeps .emptyList
        (afterAll [.compileCondition (.object [("a", .null), ("$no", .null)])]
          ((Operation.bindEach "a" [.null, .string "x"]).after
            (afterAll [.bindDocument "a_1" .null] {}))) outcome := by
  have kept := promises_are_kept {} [.bindDocument "a_1" .null]
    (.bindEach "a" [.null, .string "x"])
    [.compileCondition (.object [("a", .null), ("$no", .null)])]
  obtain ⟨-, -, -, -, kept⟩ := kept
  exact ⟨_, rfl, kept _ rfl⟩

/-! ### What a second run does -/

/-- An operation that was run once is idle from then on. Run again, whatever was done in between, it
has the outcome that it had, be it a result or an error, and registers nothing. -/
theorem running_again_changes_nothing (operation : Operation) (start : Placeholders)
    (between : List Operation) :
    let r := afterAll between (operation.after start)
    operation.run.runFrom r = ((operation.run.runFrom start).1, r) := by
  intro r
  -- What the first run has registered is still there, and so every token is found again.
  have onwards : Reaches (operation.after start) r := reaches_afterAll between _
  exact operation.composed_run.runFrom_again onwards.le

end Operation

end DocQuery
