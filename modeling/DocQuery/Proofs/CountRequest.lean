import DocQuery.Proofs.RequestTokens
import DocQuery.Store

/-!
# DocQuery.Proofs.CountRequest

A count asks the store for exactly what the read would match.

The conditions of a read are compiled before its projection, in a count as well, and so they are
given the same tokens. The projection never fails and binds no value. All that it leaves behind is
the names of its own paths, and these are all that a count does without.

## Main results

`projects_compileFieldList`: what a projection does to the placeholders that it starts from.
`counts_ask_what_reads_match`: the request of a count is that of the read without its projection.
-/

namespace DocQuery

open Compile

/-! ### Projections -/

/-- What the projection of a field list does to the placeholders `p` of the conditions before it.
It succeeds, keeps all names, adds those of its own paths and no others, and binds no value. -/
structure Projects (fields : Option String) (p : Placeholders) (projection : Option Projection)
    (q : Placeholders) : Prop where
  ran : (compileFieldList fields).runFrom p = (.ok projection, q)
  within : p.names.Within q.names
  further : ∀ token, token ∈ q.names.keys ↔
    token ∈ p.names.keys ∨ ∃ path ∈ projection.getD [], ∃ step ∈ path, step.name = token
  values : q.values = p.values

theorem compileFieldList_succeeds (fields : Option String) (p : Placeholders) :
    ∃ projection q, (compileFieldList fields).runFrom p = (.ok projection, q) := by
  cases fields with
  | none => exact ⟨none, p, rfl⟩
  | some list =>
    rw [compileFieldList, runFrom_liftM_bind]
    split
    · exact ⟨_, _, rfl⟩
    · exact ⟨_, _, rfl⟩

theorem projects_compileFieldList (fields : Option String) (p : Placeholders) :
    ∃ projection q, Projects fields p projection q := by
  obtain ⟨projection, q, ran⟩ := compileFieldList_succeeds fields p
  have adds := compileFieldList_adds ran
  refine ⟨projection, q, ran, adds.reaches.le.1, fun token => ?_, ?_⟩
  · have keys := adds.keys .name token
    simpa [Placeholders.keys, Projection.tokensOrNone, Path.tokens] using keys
  · obtain ⟨paths, -, -, rfl⟩ := compileFieldList_ok ran
    exact nameTexts_values paths p

theorem projects_none (p : Placeholders) : Projects none p none p where
  ran := rfl
  within := fun _ _ found => found
  further token := by simp
  values := rfl

/-! ### Reads -/

section Reads

variable {α β γ : Type} {conditions : Compile α} {pair : α → Option Projection → β}

/-- The conditions of a read, and its projection after them. -/
def thenProject (conditions : Compile α) (pair : α → Option Projection → β)
    (fields : Option String) : Compile β := do
  let parts ← conditions
  let projection ← compileFieldList fields
  return pair parts projection

/-- Where the conditions of a read are refused, so is the read, with a projection or without. -/
theorem assemble_refused {error : CompileError} {q : Placeholders}
    (ran : conditions.runFrom {} = (.error error, q)) (fields : Option String)
    (finish : β → Placeholders → γ) :
    assemble (thenProject conditions pair fields) finish = .error (.compile error) := by
  rw [assemble, thenProject, runFrom_bind, ran]

/-- Where the conditions of a read are compiled, the read is built with its projection. -/
theorem assemble_projected {parts : α} {projection : Option Projection} {fields : Option String}
    {p q : Placeholders} (ran : conditions.runFrom {} = (.ok parts, p))
    (projects : Projects fields p projection q) (finish : β → Placeholders → γ) :
    assemble (thenProject conditions pair fields) finish =
      .ok (finish (pair parts projection) q) := by
  have whole : (thenProject conditions pair fields).runFrom {} =
      (.ok (pair parts projection), q) :=
    runFrom_bind_ok.mpr ⟨parts, p, ran, runFrom_map_ok.mpr ⟨projection, projects.ran, rfl⟩⟩
  rw [assemble, whole]

/-- A read that is built goes on to its projection from what its conditions leave. -/
theorem projects_of_built {fields : Option String} {finish : β → Placeholders → γ} {request : γ}
    (built : assemble (thenProject conditions pair fields) finish = .ok request) :
    ∃ parts projection q, Projects fields (conditions.runFrom {}).2 projection q ∧
      request = finish (pair parts projection) q := by
  rcases ran : conditions.runFrom {} with ⟨error | parts, p⟩
  · -- Where the conditions are refused nothing is built.
    rw [assemble_refused ran] at built
    cases built
  · obtain ⟨projection, q, projects⟩ := projects_compileFieldList fields p
    rw [assemble_projected ran projects] at built
    cases built
    exact ⟨parts, projection, q, projects, rfl⟩

/-- If a count is the read but for its projection and its names, and takes all values over, then it
is built where the read is and is refused with the same error where it is not. -/
theorem assemble_count {read count : β → Placeholders → γ} {counting : KeyMap String → γ → γ}
    (fields : Option String)
    (agree : ∀ parts projection p q, q.values = p.values →
      count (pair parts none) p = counting p.names (read (pair parts projection) q)) :
    assemble (thenProject conditions pair none) count =
      (assemble (thenProject conditions pair fields) read).map
        (counting (conditions.runFrom {}).2.names) := by
  rcases ran : conditions.runFrom {} with ⟨error | parts, p⟩
  · -- Neither request is built, and for the same reason.
    rw [assemble_refused ran, assemble_refused ran]
    rfl
  · obtain ⟨projection, q, projects⟩ := projects_compileFieldList fields p
    rw [assemble_projected ran projects, assemble_projected ran (projects_none p),
      agree parts projection p q projects.values]
    rfl

end Reads

/-- The request for the number of what a read matches: it has no projection, and `names` for its
names. -/
def QueryRequest.counting (names : KeyMap String) (read : QueryRequest) : QueryRequest :=
  { read with names, projection := none, select := some .count }

/-- The request for the number of items that a scan lets through. -/
def ScanRequest.counting (names : KeyMap String) (read : ScanRequest) : ScanRequest :=
  { read with names, projection := none, select := some .count }

namespace QueryBuilder

/-- What a query matches by: its key condition and its filter. -/
def compileMatch (b : QueryBuilder) : Compile (Option Condition × Option Condition) := do
  let keyCondition ← compileCondition b.keyCondition
  let filter ← compileFilters b.filters
  return (keyCondition, filter)

theorem compile_eq (b : QueryBuilder) (select : Option Select) :
    b.compile select = thenProject b.compileMatch
      (fun parts projection => (parts.1, parts.2, projection))
      (if select = some .count then none else b.fields) := by
  simp only [compile, compileMatch, thenProject, bind_assoc, pure_bind]

theorem buildCount_eq (b : QueryBuilder) :
    b.buildCount = b.build.map (.counting (b.compileMatch.runFrom {}).2.names) := by
  simp only [buildCount, build, buildWith, compile_eq, if_true, reduceCtorEq, if_false]
  refine assemble_count b.fields fun parts projection p q values => ?_
  simp only [QueryRequest.counting, values]
  rfl

theorem projects_of_build {b : QueryBuilder} {read : QueryRequest} (built : b.build = .ok read) :
    ∃ projection q, Projects b.fields (b.compileMatch.runFrom {}).2 projection q ∧
      read.projection = projection.map Projection.text ∧ read.names = q.names := by
  rw [build, buildWith, compile_eq] at built
  obtain ⟨parts, projection, q, projects, rfl⟩ := projects_of_built built
  exact ⟨projection, q, projects, rfl, rfl⟩

end QueryBuilder

namespace ScanBuilder

theorem compile_eq (b : ScanBuilder) (select : Option Select) :
    b.compile select = thenProject (compileFilters b.filters) Prod.mk
      (if select = some .count then none else b.fields) := rfl

theorem buildCount_eq (b : ScanBuilder) :
    b.buildCount = b.build.map (.counting ((compileFilters b.filters).runFrom {}).2.names) := by
  simp only [buildCount, build, buildWith, compile_eq, if_true, reduceCtorEq, if_false]
  refine assemble_count b.fields fun filter projection p q values => ?_
  simp only [ScanRequest.counting, values]
  rfl

theorem projects_of_build {b : ScanBuilder} {read : ScanRequest} (built : b.build = .ok read) :
    ∃ projection q, Projects b.fields ((compileFilters b.filters).runFrom {}).2 projection q ∧
      read.projection = projection.map Projection.text ∧ read.names = q.names := by
  rw [build, buildWith, compile_eq] at built
  obtain ⟨filter, projection, q, projects, rfl⟩ := projects_of_built built
  exact ⟨projection, q, projects, rfl, rfl⟩

end ScanBuilder

/-! ### Counts -/

/-- The count is taken from the answer to a request that was built. -/
theorem send_count {m : Type → Type} [Monad m] {ρ : Type} (request : ρ)
    (call : ρ → m (Except ServiceError ReadResponse)) :
    send (.ok request) call (fun response => .ok response.count) =
      call request >>= fun answer => pure ((answer.map ReadResponse.count).mapError .store) := by
  refine congrArg (call request >>= ·) (funext fun answer => ?_)
  cases answer <;> rfl

/-- A count asks for exactly what the read would match. Its request is built where that of the read
is built, and is refused with the same error where it is not. It is the request of the read in every
field, but that it selects the count, has no projection, and has only those names that the key
condition and the filters have left. Just this request is sent, and the outcome is the count of the
answer. The projection of the read keeps all names of the count, and each name that it adds
is on one of its paths. -/
theorem counts_ask_what_reads_match {m : Type → Type} [Monad m] (store : DocumentStore m) :
    (∀ b : QueryBuilder,
      let matched := (b.compileMatch.runFrom {}).2
      let counted := b.build.map (.counting matched.names)
      b.buildCount = counted ∧
        (∀ error, counted = .error error → b.count store = pure (.error error)) ∧
        (∀ request, counted = .ok request → b.count store =
          store.query request >>= fun answer =>
            pure ((answer.map ReadResponse.count).mapError .store)) ∧
        ∀ read, b.build = .ok read → ∃ projection q, Projects b.fields matched projection q ∧
          read.projection = projection.map Projection.text ∧ read.names = q.names) ∧
    ∀ b : ScanBuilder,
      let matched := ((compileFilters b.filters).runFrom {}).2
      let counted := b.build.map (.counting matched.names)
      b.buildCount = counted ∧
        (∀ error, counted = .error error → b.count store = pure (.error error)) ∧
        (∀ request, counted = .ok request → b.count store =
          store.scan request >>= fun answer =>
            pure ((answer.map ReadResponse.count).mapError .store)) ∧
        ∀ read, b.build = .ok read → ∃ projection q, Projects b.fields matched projection q ∧
          read.projection = projection.map Projection.text ∧ read.names = q.names := by
  constructor
  · intro b matched counted
    -- What is sent is what is built, so all but the projection follows from one equation.
    have sameRequest : b.buildCount = counted := b.buildCount_eq
    refine ⟨sameRequest, fun error refused => ?_, fun request made => ?_,
      fun read => QueryBuilder.projects_of_build⟩
    · rw [QueryBuilder.count, sameRequest, refused]
      rfl
    · rw [QueryBuilder.count, sameRequest, made, send_count]
  · intro b matched counted
    have sameRequest : b.buildCount = counted := b.buildCount_eq
    refine ⟨sameRequest, fun error refused => ?_, fun request made => ?_,
      fun read => ScanBuilder.projects_of_build⟩
    · rw [ScanBuilder.count, sameRequest, refused]
      rfl
    · rw [ScanBuilder.count, sameRequest, made, send_count]

/-- A query whose projection names one attribute of its conditions, and one that is spelled like
another of them. -/
def dashedQuery : QueryBuilder where
  table := "t"
  keyCondition := .object [("a-b", .string "x")]
  filters := [.object [("c", .null)]]
  fields := some "c a_b"
  order := some .descending

/-- A store that finds as many items as it is asked for in the limit. -/
def limitedStore : DocumentStore Id where
  query request := .ok { count := request.limit.getD 0 }
  scan request := .ok { count := request.limit.getD 0 }
  update _ := .ok {}
  delete _ := .ok {}

theorem dashedQuery_asks_what_it_matches :
    let names := ((∅ : KeyMap String).insert "#k_a_b" "a-b").insert "#k_c" "c"
    ∃ read, dashedQuery.build = .ok read ∧
      dashedQuery.buildCount = .ok (read.counting names) ∧
      read.projection = some "#k_c, #k_a_b_1" ∧ read.names = names.insert "#k_a_b_1" "a_b" ∧
      ∃ projection q, Projects (some "c a_b") (dashedQuery.compileMatch.runFrom {}).2 projection q ∧
        read.names = q.names := by
  intro names
  have left : (dashedQuery.compileMatch.runFrom {}).2.names = names := by decide +kernel
  have fields : dashedQuery.build.toOption.map (fun read => (read.projection, read.names)) =
      some (some "#k_c, #k_a_b_1", names.insert "#k_a_b_1" "a_b") := by decide +kernel
  cases built : dashedQuery.build with
  | error =>
    rw [built] at fields
    cases fields
  | ok read =>
    -- The projection reuses the token of `c`, and numbers on the token that `a-b` has taken.
    obtain ⟨counted, -, -, projected⟩ := (counts_ask_what_reads_match limitedStore).1 dashedQuery
    obtain ⟨projection, q, projects, -, same⟩ := projected read built
    rw [built, left] at counted
    simp only [built, Except.toOption, Option.map_some, Option.some.injEq, Prod.mk.injEq] at fields
    exact ⟨read, rfl, counted, fields.1, fields.2, projection, q, projects, same⟩

end DocQuery
