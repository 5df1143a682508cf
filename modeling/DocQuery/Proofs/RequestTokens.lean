import DocQuery.Builder.Read
import DocQuery.Builder.Write
import DocQuery.Proofs.TokenUse

/-!
# DocQuery.Proofs.RequestTokens

Every request defines exactly the tokens that its expressions use.

## Proof strategy

The parts of a request are compiled one after the other from no placeholders at all. Each of them
registers the tokens of its result (`Adds`), and its text holds the tokens of the result
(`Covers`), which makes it a `Part`. Since nothing else is registered and nothing is left out of
the request, the tokens that stand for something are those that occur.
-/

namespace DocQuery

open Compile

/-! ### Texts and their tokens -/

/-- The tokens that occur in some texts are the given ones. -/
def Covers (texts : List String) (tokens : TokenKind → List Token) : Prop :=
  ∀ kind token, (∃ text ∈ texts, token ∈ tokensIn kind text) ↔ token ∈ tokens kind

theorem Covers.nothing : Covers [] fun _ => [] := by
  simp [Covers]

theorem Covers.append {texts others : List String} {tokens more : TokenKind → List Token}
    (first : Covers texts tokens) (second : Covers others more) :
    Covers (texts ++ others) fun kind => tokens kind ++ more kind := by
  intro kind token
  rw [List.mem_append, ← first kind token, ← second kind token]
  simp only [List.mem_append, or_and_right, exists_or]

/-- A part of a request: its texts hold the tokens that were registered for it. -/
structure Part (p q : Placeholders) (texts : List String) (tokens : TokenKind → List Token) :
    Prop where
  adds : Adds p q tokens
  covers : Covers texts tokens

theorem Part.append {p q r : Placeholders} {texts others : List String}
    {tokens more : TokenKind → List Token} (first : Part p q texts tokens)
    (second : Part q r others more) :
    Part p r (texts ++ others) fun kind => tokens kind ++ more kind where
  adds := first.adds.append second.adds
  covers := first.covers.append second.covers

/-- Parts that were compiled from nothing define what their texts use. -/
theorem Part.defines {q : Placeholders} {texts : List String} {tokens : TokenKind → List Token}
    (part : Part {} q texts tokens) (kind : TokenKind) (token : Token) :
    token ∈ q.keys kind ↔ ∃ text ∈ texts, token ∈ tokensIn kind text := by
  have empty : token ∉ ({} : Placeholders).keys kind := by
    cases kind <;> simp [Placeholders.keys, Ascending.mem_keys_iff]
    all_goals rfl
  rw [part.covers kind token, part.adds.keys kind token]
  simp [empty]

/-! ### Parts of requests -/

section Parts

variable {p q : Placeholders}

/-- The tokens of a condition that may be missing. -/
def Condition.tokensOrNone (condition : Option Condition) (kind : TokenKind) : List Token :=
  (predicatesOf condition.toList).flatMap fun predicate => predicate.tokens kind

theorem Condition.covers {condition : Option Condition}
    (spelled : ∀ predicate ∈ predicatesOf condition.toList, predicate.IsSpelled)
    (made : Made (tokensOrNone condition)) :
    Covers (condition.map text).toList (tokensOrNone condition) := by
  cases condition with
  | none => exact .nothing
  | some condition =>
    have each := made_flatMap.mp made
    have own : predicatesOf [condition] = condition.predicates := by simp [predicatesOf]
    simp only [Option.toList_some, own] at spelled each
    intro kind token
    have scanned : tokensIn kind condition.text = condition.tokens kind :=
      condition.tokensIn_text fun predicate member =>
        ⟨spelled predicate member, each predicate member⟩
    simp [tokensOrNone, own, scanned, tokens]

/-- A condition of the predicates that some questions became. -/
theorem Condition.part {questions : Fields} {condition : Option Condition}
    (ran : Threaded compileQuestion p questions (predicatesOf condition.toList) q)
    (spelled : ∀ predicate ∈ predicatesOf condition.toList, predicate.IsSpelled) :
    Part p q (condition.map text).toList (tokensOrNone condition) :=
  have adds := ran.adds compileQuestion_adds
  ⟨adds, Condition.covers spelled adds.made⟩

theorem predicatesOf_conjoin (first second : Option Condition) :
    Condition.predicatesOf (Condition.conjoin first second).toList =
      Condition.predicatesOf first.toList ++ Condition.predicatesOf second.toList := by
  cases first <;> cases second <;>
    simp [Condition.conjoin, Condition.both, Condition.predicatesOf, Condition.predicates]

theorem predicatesOf_foldl_conjoin (conditions : List (Option Condition))
    (previous : Option Condition) :
    Condition.predicatesOf (conditions.foldl Condition.conjoin previous).toList =
      Condition.predicatesOf previous.toList ++
        conditions.flatMap fun condition => Condition.predicatesOf condition.toList := by
  induction conditions generalizing previous with
  | nil => simp
  | cons condition rest ih =>
    rw [List.foldl_cons, ih, predicatesOf_conjoin, List.flatMap_cons, List.append_assoc]

/-- Filters compile if each of them compiles in its turn, and then to the conjunction. -/
theorem compileFiltersAfter_ok_iff {filters : List Document}
    {previous condition : Option Condition} :
    (compileFiltersAfter previous filters).runFrom p = (.ok condition, q) ↔
      ∃ conditions, Threaded compileCondition p filters conditions q ∧
        condition = conditions.foldl Condition.conjoin previous := by
  induction filters generalizing p previous with
  | nil =>
    rw [compileFiltersAfter, runFrom_pure]
    constructor
    · intro same
      cases same
      exact ⟨[], .nil _, rfl⟩
    · rintro ⟨conditions, threaded, rfl⟩
      cases threaded
      rfl
  | cons filter rest ih =>
    rw [compileFiltersAfter, runFrom_bind_ok]
    constructor
    · rintro ⟨next, s, head, ran⟩
      obtain ⟨conditions, tail, rfl⟩ := ih.mp ran
      exact ⟨next :: conditions, .cons head tail, rfl⟩
    · rintro ⟨conditions, threaded, rfl⟩
      cases threaded with
      | cons head tail => exact ⟨_, _, head, ih.mpr ⟨_, tail, rfl⟩⟩

theorem compileFilters_threaded {condition : Option Condition} {filters : List Document}
    (ran : (compileFilters filters).runFrom p = (.ok condition, q)) :
    Threaded compileQuestion p (filters.flatMap Query.questions)
      (Condition.predicatesOf condition.toList) q := by
  obtain ⟨conditions, threaded, rfl⟩ := compileFiltersAfter_ok_iff.mp ran
  rw [predicatesOf_foldl_conjoin]
  exact threaded.flatMap fun head => (means_compileCondition head).ran

theorem compileFilters_spelled {filters : List Document} {condition : Option Condition}
    (wellFormed : ∀ filter ∈ filters, Query.WellFormed filter)
    (ran : (compileFilters filters).runFrom p = (.ok condition, q)) :
    ∀ predicate ∈ Condition.predicatesOf condition.toList, predicate.IsSpelled := by
  apply questions_spelled _ (compileFilters_threaded ran)
  intro question member
  obtain ⟨filter, inFilters, asked⟩ := List.mem_flatMap.mp member
  exact wellFormed filter inFilters question asked

theorem compileFilters_part {filters : List Document} {condition : Option Condition}
    (wellFormed : ∀ filter ∈ filters, Query.WellFormed filter)
    (ran : (compileFilters filters).runFrom p = (.ok condition, q)) :
    Part p q (condition.map Condition.text).toList (Condition.tokensOrNone condition) :=
  Condition.part (compileFilters_threaded ran) (compileFilters_spelled wellFormed ran)

theorem compileFieldList_ok {fields : Option String} {projection : Option Projection}
    (ran : (compileFieldList fields).runFrom p = (.ok projection, q)) :
    ∃ paths : List String, (∀ path ∈ paths, ∃ list ∈ fields, path ∈ fieldList list) ∧
      projection.getD [] = (nameTexts paths p).1 ∧ q = (nameTexts paths p).2 := by
  cases fields with
  | none =>
    rw [compileFieldList, runFrom_pure] at ran
    cases ran
    exact ⟨[], by simp, rfl, rfl⟩
  | some list =>
    rw [compileFieldList, runFrom_liftM_bind] at ran
    refine ⟨fieldList list, fun path member => ⟨list, rfl, member⟩, ?_⟩
    split at ran
    next empty =>
      -- A projection to nothing is left out.
      cases ran
      exact ⟨empty.symm, rfl⟩
    next =>
      cases ran
      exact ⟨rfl, rfl⟩

/-- The tokens of a projection that may be missing. -/
def Projection.tokensOrNone (projection : Option Projection) (kind : TokenKind) : List Token :=
  (projection.getD []).flatMap fun path => path.tokens kind

theorem Projection.covers_text {projection : Projection}
    (spelled : ∀ path ∈ projection, path.IsSpelled)
    (made : Made fun kind => projection.flatMap fun path => path.tokens kind) :
    Covers [projection.text] fun kind => projection.flatMap fun path => path.tokens kind := by
  have each := made_flatMap.mp made
  intro kind token
  have scanned : tokensIn kind projection.text =
      projection.flatMap fun path => path.tokens kind :=
    tokensIn_text fun path member => ⟨spelled path member, each path member⟩
  simp [scanned]

theorem Projection.covers {projection : Option Projection}
    (spelled : ∀ path ∈ projection.getD [], path.IsSpelled)
    (made : Made (tokensOrNone projection)) :
    Covers (projection.map text).toList (tokensOrNone projection) := by
  cases projection with
  | none => exact .nothing
  | some projection => exact covers_text spelled made

theorem compileFieldList_adds {fields : Option String} {projection : Option Projection}
    (ran : (compileFieldList fields).runFrom p = (.ok projection, q)) :
    Adds p q (Projection.tokensOrNone projection) := by
  obtain ⟨paths, -, named, rfl⟩ := compileFieldList_ok ran
  unfold Projection.tokensOrNone
  rw [named]
  exact nameTexts_adds paths p

theorem compileFieldList_part {fields : Option String} {projection : Option Projection}
    (wellFormed : ∀ list ∈ fields, ∀ path ∈ fieldList list, WellFormedPath path)
    (ran : (compileFieldList fields).runFrom p = (.ok projection, q)) :
    Part p q (projection.map Projection.text).toList (Projection.tokensOrNone projection) := by
  have adds := compileFieldList_adds ran
  obtain ⟨paths, fromLists, named, rfl⟩ := compileFieldList_ok ran
  refine ⟨adds, Projection.covers ?_ adds.made⟩
  rw [named]
  apply nameTexts_spelled
  intro path member
  obtain ⟨list, isList, inList⟩ := fromLists path member
  exact wellFormed list isList path inList

/-- A request for a number has no projection, whatever fields were asked for. -/
theorem selected_wellFormed {select : Option Select} {fields : Option String}
    (wellFormed : ∀ list ∈ fields, ∀ path ∈ fieldList list, WellFormedPath path) :
    ∀ list ∈ (if select = some .count then none else fields), ∀ path ∈ fieldList list,
      WellFormedPath path := by
  split
  · simp
  · exact wellFormed

/-! ### Guards -/

theorem guardAttributes_cons (test : Path → Predicate) (name : String) (value : Document)
    (rest : Fields) (p : Placeholders) :
    guardAttributes test ((name, value) :: rest) p =
      let token := Naming.nameAttribute name p
      let tests := guardAttributes test rest token.2
      (.test (test [⟨token.1, ""⟩]) :: tests.1, tests.2) := rfl

theorem guardAttributes_adds {test : Path → Predicate}
    (tests : ∀ path kind, (test path).tokens kind = path.tokens kind) (fields : Fields)
    (p : Placeholders) :
    Adds p (guardAttributes test fields p).2 fun kind =>
      (Condition.predicatesOf (guardAttributes test fields p).1).flatMap fun predicate =>
        predicate.tokens kind := by
  induction fields generalizing p with
  | nil => exact .nothing p
  | cons field rest ih =>
    obtain ⟨name, value⟩ := field
    rw [guardAttributes_cons]
    apply ((Naming.nameAttribute_adds name p).append (ih _)).congr
    intro kind token
    simp [Condition.predicatesOf, Condition.predicates, tests, Path.tokens]

theorem guardAttributes_spelled {test : Path → Predicate}
    (tests : ∀ path, path.IsSpelled → (test path).IsSpelled) (fields : Fields)
    (p : Placeholders) :
    ∀ predicate ∈ Condition.predicatesOf (guardAttributes test fields p).1,
      predicate.IsSpelled := by
  induction fields generalizing p with
  | nil => exact List.forall_mem_nil _
  | cons field rest ih =>
    obtain ⟨name, value⟩ := field
    rw [guardAttributes_cons]
    intro predicate member
    rcases List.mem_append.mp member with own | inRest
    · -- A key attribute is named as a whole: one step without an index.
      obtain rfl := List.mem_singleton.mp own
      apply tests
      refine ⟨List.cons_ne_nil _ _, fun step isStep => ?_⟩
      obtain rfl := List.mem_singleton.mp isStep
      exact Step.isSpelled_iff.mpr ⟨(Naming.nameAttribute_isNameToken name p).isName, rfl⟩
    · exact ih _ predicate inRest

theorem WriteMode.guard_tokens {mode : WriteMode} {test : Path → Predicate}
    (guarded : mode.guard = some test) (path : Path) (kind : TokenKind) :
    (test path).tokens kind = path.tokens kind := by
  cases mode <;> cases guarded <;> cases kind <;>
    simp [Predicate.tokens, Predicate.path, Predicate.operands]

theorem WriteMode.guard_spelled {mode : WriteMode} {test : Path → Predicate}
    (guarded : mode.guard = some test) (path : Path) (spelled : path.IsSpelled) :
    (test path).IsSpelled := by
  cases mode <;> cases guarded <;> exact spelled

theorem predicatesOf_condition (guards : List Condition) (filter : Option Condition) :
    Condition.predicatesOf (UpdateBuilder.condition guards filter).toList =
      Condition.predicatesOf guards ++ Condition.predicatesOf filter.toList := by
  cases guards with
  | nil => cases filter <;> rfl
  | cons first rest =>
    -- The guards come first, and the filter joins them in parentheses.
    cases filter with
    | none =>
      rw [UpdateBuilder.condition, Condition.predicatesOf_join]
      · simp [Condition.predicatesOf]
      · simp
    | some filter =>
      rw [UpdateBuilder.condition, Condition.predicatesOf_join, Condition.predicatesOf_append]
      · simp [Condition.predicatesOf, Condition.predicates]
      · simp

end Parts

theorem Update.covers_text {update : Update} (spelled : ∀ action ∈ update, action.IsSpelled)
    (made : Made fun kind => update.flatMap fun action => action.tokens kind) :
    Covers [update.text] fun kind => update.flatMap fun action => action.tokens kind := by
  have each := made_flatMap.mp made
  intro kind token
  have scanned : token ∈ tokensIn kind update.text ↔
      ∃ action ∈ update, token ∈ action.tokens kind :=
    mem_tokensIn_text fun action member => ⟨spelled action member, each action member⟩
  simpa using scanned

/-- An update without actions has no tokens, whether or not it is left out. -/
theorem Update.covers {update : Update} (spelled : ∀ action ∈ update, action.IsSpelled)
    (made : Made fun kind => update.flatMap fun action => action.tokens kind) :
    Covers (if update.isEmpty then none else some update.text).toList
      fun kind => update.flatMap fun action => action.tokens kind := by
  cases update with
  | nil => exact .nothing
  | cons => exact covers_text spelled made

/-! ### Requests -/

inductive Request where
  | query (request : QueryRequest)
  | scan (request : ScanRequest)
  | update (request : UpdateRequest)
  | delete (request : DeleteRequest)

namespace Request

/-- The expressions of a request, those that it does without left out. -/
def expressions : Request → List String
  | .query request =>
    request.keyCondition.toList ++ request.filter.toList ++ request.projection.toList
  | .scan request => request.filter.toList ++ request.projection.toList
  | .update request => request.update.toList ++ request.condition.toList
  | .delete request => request.condition.toList

def placeholders : Request → Placeholders
  | .query request => { names := request.names, values := request.values }
  | .scan request => { names := request.names, values := request.values }
  | .update request => { names := request.names, values := request.values }
  | .delete request => { names := request.names, values := request.values }

end Request

inductive Builder where
  | query (builder : QueryBuilder) (counts : Bool)
  | scan (builder : ScanBuilder) (counts : Bool)
  | update (builder : UpdateBuilder)
  | delete (builder : DeleteBuilder)

namespace Builder

/-- The request of a builder; a query or scan is built for its matches or for their number. -/
def build : Builder → Except RequestError Request
  | .query builder counts =>
    (if counts then builder.buildCount else builder.build).map .query
  | .scan builder counts =>
    (if counts then builder.buildCount else builder.build).map .scan
  | .update builder => builder.build.map .update
  | .delete builder => builder.build.map .delete

/-- The query documents of a builder. -/
def queries : Builder → List Document
  | .query builder _ => builder.keyCondition :: builder.filters
  | .scan builder _ => builder.filters
  | .update builder => builder.filters
  | .delete builder => builder.filters

/-- The fields that are to be changed. -/
def updateFields : Builder → List UpdateField
  | .update builder => UpdateField.ofDocument builder.update
  | _ => []

/-- The field list of a read. -/
def fieldList? : Builder → Option String
  | .query builder _ => builder.fields
  | .scan builder _ => builder.fields
  | _ => none

/-- Every path in the documents and in the field list is well formed. Key attributes are named as
a whole and may have any name. -/
structure WellFormed (b : Builder) : Prop where
  queries : ∀ query ∈ b.queries, Query.WellFormed query
  updates : ∀ field ∈ b.updateFields, WellFormedPath field.path
  fields : ∀ list ∈ b.fieldList?, ∀ path ∈ fieldList list, WellFormedPath path

end Builder

section Builders

theorem assemble_ok {α β : Type} {compile : Compile α} {finish : α → Placeholders → β}
    {request : β} (built : assemble compile finish = .ok request) :
    ∃ parts p, compile.runFrom {} = (.ok parts, p) ∧ request = finish parts p := by
  unfold assemble at built
  split at built
  next parts p ran =>
    cases built
    exact ⟨parts, p, ran, rfl⟩
  next => cases built

theorem QueryBuilder.buildWith_defines {b : QueryBuilder} {select : Option Select}
    {request : QueryRequest}
    (queries : ∀ query ∈ b.keyCondition :: b.filters, Query.WellFormed query)
    (fields : ∀ list ∈ b.fields, ∀ path ∈ fieldList list, WellFormedPath path)
    (built : b.buildWith select = .ok request) (kind : TokenKind) (token : Token) :
    token ∈ (Request.query request).placeholders.keys kind ↔
      ∃ text ∈ (Request.query request).expressions, token ∈ tokensIn kind text := by
  obtain ⟨⟨keyCondition, filter, projection⟩, p, ran, rfl⟩ := assemble_ok built
  obtain ⟨keyWellFormed, filtersWellFormed⟩ := List.forall_mem_cons.mp queries
  rw [QueryBuilder.compile, runFrom_bind_ok] at ran
  obtain ⟨_, q, keyRan, ran⟩ := ran
  rw [runFrom_bind_ok] at ran
  obtain ⟨_, r, filterRan, ran⟩ := ran
  rw [runFrom_map_ok] at ran
  obtain ⟨_, projectionRan, same⟩ := ran
  cases same
  have keyThreaded := (means_compileCondition keyRan).ran
  have keyPart := Condition.part keyThreaded (questions_spelled keyWellFormed keyThreaded)
  have filterPart := compileFilters_part filtersWellFormed filterRan
  have projectionPart := compileFieldList_part (selected_wellFormed fields) projectionRan
  exact ((keyPart.append filterPart).append projectionPart).defines kind token

theorem ScanBuilder.buildWith_defines {b : ScanBuilder} {select : Option Select}
    {request : ScanRequest} (queries : ∀ query ∈ b.filters, Query.WellFormed query)
    (fields : ∀ list ∈ b.fields, ∀ path ∈ fieldList list, WellFormedPath path)
    (built : b.buildWith select = .ok request) (kind : TokenKind) (token : Token) :
    token ∈ (Request.scan request).placeholders.keys kind ↔
      ∃ text ∈ (Request.scan request).expressions, token ∈ tokensIn kind text := by
  obtain ⟨⟨filter, projection⟩, p, ran, rfl⟩ := assemble_ok built
  rw [ScanBuilder.compile, runFrom_bind_ok] at ran
  obtain ⟨_, q, filterRan, ran⟩ := ran
  rw [runFrom_map_ok] at ran
  obtain ⟨_, projectionRan, same⟩ := ran
  cases same
  have filterPart := compileFilters_part queries filterRan
  have projectionPart := compileFieldList_part (selected_wellFormed fields) projectionRan
  exact (filterPart.append projectionPart).defines kind token

theorem compileGuard_adds (b : UpdateBuilder) (p : Placeholders) :
    Adds p (b.compileGuard p).2 fun kind =>
      (Condition.predicatesOf (b.compileGuard p).1).flatMap fun predicate =>
        predicate.tokens kind := by
  unfold UpdateBuilder.compileGuard
  cases guarded : b.mode.guard with
  | none => exact .nothing p
  | some test => exact guardAttributes_adds (WriteMode.guard_tokens guarded) _ p

theorem compileGuard_spelled (b : UpdateBuilder) (p : Placeholders) :
    ∀ predicate ∈ Condition.predicatesOf (b.compileGuard p).1, predicate.IsSpelled := by
  unfold UpdateBuilder.compileGuard
  cases guarded : b.mode.guard with
  | none => exact List.forall_mem_nil _
  | some test => exact guardAttributes_spelled (WriteMode.guard_spelled guarded) _ p

/-- A built write has a key, and its update, guard and filters are compiled in this order. -/
theorem UpdateBuilder.build_ok {b : UpdateBuilder} {request : UpdateRequest}
    (built : b.build = .ok request) : ∃ key update filter q r,
      keyOfDocument b.key = .ok key ∧
      (compileUpdate b.update).runFrom {} = (.ok update, q) ∧
      (compileFilters b.filters).runFrom (b.compileGuard q).2 = (.ok filter, r) ∧
      request = {
        table := b.table
        key
        update := if update.isEmpty then none else some update.text
        condition := (condition (b.compileGuard q).1 filter).map Condition.text
        names := r.names
        values := r.values
        returnValues := some b.returnValues } := by
  unfold UpdateBuilder.build at built
  cases keyed : keyOfDocument b.key with
  | error => rw [keyed] at built; cases built
  | ok key =>
    rw [keyed] at built
    obtain ⟨⟨update, condition⟩, r, ran, rfl⟩ := assemble_ok built
    rw [UpdateBuilder.compile, runFrom_bind_ok] at ran
    obtain ⟨_, q, updateRan, ran⟩ := ran
    rw [runFrom_liftM_bind, runFrom_map_ok] at ran
    obtain ⟨filter, filterRan, same⟩ := ran
    cases same
    exact ⟨key, update, filter, q, r, rfl, updateRan, filterRan, rfl⟩

theorem UpdateBuilder.build_defines {b : UpdateBuilder} {request : UpdateRequest}
    (updates : ∀ field ∈ UpdateField.ofDocument b.update, WellFormedPath field.path)
    (queries : ∀ query ∈ b.filters, Query.WellFormed query)
    (built : b.build = .ok request) (kind : TokenKind) (token : Token) :
    token ∈ (Request.update request).placeholders.keys kind ↔
      ∃ text ∈ (Request.update request).expressions, token ∈ tokensIn kind text := by
  obtain ⟨key, update, filter, q, p, -, updateRan, filterRan, rfl⟩ := UpdateBuilder.build_ok built
  -- The update, the guards and the filters in the order in which they were compiled.
  have actionsSpelled := compileUpdate_spelled updates updateRan
  have conditionSpelled : ∀ predicate ∈ Condition.predicatesOf
      (condition (b.compileGuard q).1 filter).toList, predicate.IsSpelled := by
    rw [predicatesOf_condition]
    intro predicate member
    rcases List.mem_append.mp member with guards | filters
    · exact compileGuard_spelled b q predicate guards
    · exact compileFilters_spelled queries filterRan predicate filters
  have conditionAdds : Adds q p
      (Condition.tokensOrNone (condition (b.compileGuard q).1 filter)) := by
    unfold Condition.tokensOrNone
    rw [predicatesOf_condition]
    simp only [List.flatMap_append]
    exact (compileGuard_adds b q).append (compileFilters_part queries filterRan).adds
  -- An update without actions is left out, and so is a condition without predicates.
  have updateAdds := (compileUpdate_threaded updateRan).adds compileUpdateField_adds
  have updatePart : Part {} q _ _ := ⟨updateAdds, Update.covers actionsSpelled updateAdds.made⟩
  have conditionPart : Part q p _ _ :=
    ⟨conditionAdds, Condition.covers conditionSpelled conditionAdds.made⟩
  exact (updatePart.append conditionPart).defines kind token

theorem DeleteBuilder.build_defines {b : DeleteBuilder} {request : DeleteRequest}
    (queries : ∀ query ∈ b.filters, Query.WellFormed query)
    (built : b.build = .ok request) (kind : TokenKind) (token : Token) :
    token ∈ (Request.delete request).placeholders.keys kind ↔
      ∃ text ∈ (Request.delete request).expressions, token ∈ tokensIn kind text := by
  unfold DeleteBuilder.build at built
  cases keyed : keyOfDocument b.key with
  | error => rw [keyed] at built; cases built
  | ok key =>
    rw [keyed] at built
    obtain ⟨condition, p, ran, rfl⟩ := assemble_ok built
    exact (compileFilters_part queries ran).defines kind token

theorem except_map_ok {α β : Type} {outcome : Except RequestError α} {f : α → β} {b : β}
    (mapped : outcome.map f = .ok b) : ∃ a, outcome = .ok a ∧ f a = b := by
  cases outcome with
  | error => cases mapped
  | ok a =>
    cases mapped
    exact ⟨a, rfl, rfl⟩

/-- A request defines exactly the tokens that its expressions use: no token is dangling and no
entry is unused. -/
theorem Builder.build_defines_what_is_used {b : Builder} {request : Request}
    (wellFormed : b.WellFormed) (built : b.build = .ok request) (kind : TokenKind)
    (token : Token) :
    token ∈ request.placeholders.keys kind ↔
      ∃ text ∈ request.expressions, token ∈ tokensIn kind text := by
  obtain ⟨queries, updates, fields⟩ := wellFormed
  cases b with
  | query b counts =>
    obtain ⟨request, inner, rfl⟩ := except_map_ok built
    cases counts with
    | false => exact QueryBuilder.buildWith_defines queries fields inner kind token
    | true => exact QueryBuilder.buildWith_defines queries fields inner kind token
  | scan b counts =>
    obtain ⟨request, inner, rfl⟩ := except_map_ok built
    cases counts with
    | false => exact ScanBuilder.buildWith_defines queries fields inner kind token
    | true => exact ScanBuilder.buildWith_defines queries fields inner kind token
  | update b =>
    obtain ⟨request, inner, rfl⟩ := except_map_ok built
    exact UpdateBuilder.build_defines updates queries inner kind token
  | delete b =>
    obtain ⟨request, inner, rfl⟩ := except_map_ok built
    exact DeleteBuilder.build_defines queries inner kind token

/-- An insert whose guard, update and filter ask for tokens that start alike. -/
def guardedInsert : Builder :=
  .update <| (UpdateBuilder.mk "t" (.object [("a.b", .string "x")])
    (.object [("$set", .object [("a", .bool true), ("a_1", .null)])]) .insert [] .allNew).filter
      (.object [("a", .bool false)])

theorem guardedInsert_defines_what_is_used :
    ∃ request, guardedInsert.build = .ok request ∧ ∀ kind token,
      token ∈ request.placeholders.keys kind ↔
        ∃ text ∈ request.expressions, token ∈ tokensIn kind text := by
  have wellFormed : guardedInsert.WellFormed := by
    refine ⟨?_, ?_, ?_⟩
    · intro query member question asked
      obtain rfl := List.mem_singleton.mp member
      obtain rfl := List.mem_singleton.mp asked
      decide
    · intro field member
      have path : field.path ∈ ["a", "a_1"] := List.mem_map_of_mem member
      simp only [List.mem_cons, List.not_mem_nil, or_false] at path
      rcases path with path | path <;> rw [path] <;> decide
    · intro list isList
      cases isList
  have built : ∃ request, guardedInsert.build = .ok request := ⟨_, rfl⟩
  obtain ⟨request, built⟩ := built
  exact ⟨request, built, Builder.build_defines_what_is_used wellFormed built⟩

end Builders

end DocQuery
