import DocQuery.Proofs.RequestTokens
import DocQuery.Proofs.Session

/-!
# DocQuery.Proofs.PathFragment

What the text of a path brings into an expression.

The names on a path are replaced by tokens, but what follows the first bracket of a segment is
kept as it is written. So a path brings in nothing but tokens, points and indices exactly if it is
well formed.

## Main results

`isFragment_nameText_iff`: a named path is a fragment exactly if the path is well formed.

`Operation.run_isPart`: what is compiled on well-formed paths uses no token that stands for nothing.
-/

namespace DocQuery

open Compile

/-! ### Fragments -/

/-- Text of registered name tokens, points between them and indices behind them, and of nothing
else. -/
def IsFragment (names : KeyMap String) (text : String) : Prop :=
  ∃ path : Path, path ≠ [] ∧ text = path.text ∧
    ∀ step ∈ path, IsNameToken step.name ∧ step.name ∈ names.keys ∧
      isIndices step.index.toList = true

namespace Naming

theorem namePath_registered (path : Path) (p : Placeholders) :
    ∀ step ∈ (namePath path p).1, step.name ∈ (namePath path p).2.names.keys := by
  intro step member
  refine ((namePath_adds path p).keys .name step.name).mpr (.inr ?_)
  exact List.mem_map_of_mem member

/-- Naming changes nothing about where a path is split. -/
theorem namePath_isParted {path : Path} (parted : ∀ step ∈ path, step.IsParted)
    (p : Placeholders) : ∀ step ∈ (namePath path p).1, step.IsParted := by
  intro step member
  -- The index is that of a step of the path.
  have kept : step.index ∈ (namePath path p).1.map DocQuery.Step.index :=
    List.mem_map_of_mem member
  rw [namePath_indices] at kept
  obtain ⟨origin, inPath, same⟩ := List.mem_map.mp kept
  have originParted := parted origin inPath
  have isName := (namePath_isNameToken path p step member).isName
  refine ⟨fun _ => Step.ne_of_mem_name isName, ?_, ?_⟩
  · rw [← same]
    exact originParted.index
  · rw [← same]
    exact originParted.opening

end Naming

/-- If a named path is a fragment, the indices that were kept are indices. -/
theorem wellFormedPath_of_isFragment {path : String} {p : Placeholders} {names : KeyMap String}
    (fragment : IsFragment names (Naming.nameText path p).1.text) : WellFormedPath path := by
  obtain ⟨spelled, nonempty, same, steps⟩ := fragment
  -- The text is split in one way only, and so the steps are those that were named.
  have named : Path.ofText (Naming.nameText path p).1.text = (Naming.nameText path p).1 :=
    Path.ofText_text_of_isParted (Naming.nameText_ne_nil path p)
      (Naming.namePath_isParted (fun _ => Path.isParted_of_mem_ofText) p)
  have again : Path.ofText spelled.text = spelled := by
    refine Path.ofText_text ⟨nonempty, fun step member => ?_⟩
    obtain ⟨name, -, indices⟩ := steps step member
    exact Step.isSpelled_iff.mpr ⟨name.isName, indices⟩
  rw [same, again, Naming.nameText] at named
  rw [wellFormedPath_iff, ← Naming.isIndices_namePath_iff (p := p), ← named]
  exact fun step member => (steps step member).2.2

/-- A named path is a fragment exactly if the path is well formed. -/
theorem isFragment_nameText_iff (path : String) (p : Placeholders) :
    IsFragment (Naming.nameText path p).2.names (Naming.nameText path p).1.text ↔
      WellFormedPath path := by
  refine ⟨wellFormedPath_of_isFragment, fun wellFormed => ?_⟩
  refine ⟨_, Naming.nameText_ne_nil path p, rfl, fun step member => ?_⟩
  have indices := (Naming.isIndices_namePath_iff (p := p)).mpr (wellFormedPath_iff.mp wellFormed)
  exact ⟨Naming.namePath_isNameToken _ p step member, Naming.namePath_registered _ p step member,
    indices step member⟩

/-! ### Expressions -/

namespace Part

variable {p q : Placeholders} {texts : List String} {tokens : TokenKind → List Token}

/-- Every token that occurs in a part stands for something. -/
theorem registered (part : Part p q texts tokens) :
    ∀ text ∈ texts, ∀ kind, ∀ token ∈ tokensIn kind text, token ∈ q.keys kind := by
  intro text member kind token occurs
  exact (part.adds.keys kind token).mpr (.inr ((part.covers kind token).mp ⟨text, member, occurs⟩))

/-- A path of a part is a fragment. -/
theorem isFragment {path : Path} (part : Part p q texts tokens) (spelled : path.IsSpelled)
    (own : ∀ token ∈ path.tokens .name, token ∈ tokens .name) :
    IsFragment q.names path.text := by
  refine ⟨path, spelled.1, rfl, fun step member => ?_⟩
  have inTokens := own step.name (List.mem_map_of_mem member)
  exact ⟨part.adds.made .name step.name inTokens,
    (part.adds.keys .name step.name).mpr (.inr inTokens),
    (Step.isSpelled_iff.mp (spelled.2 step member)).2⟩

end Part

/-- Tokens that were bound are a part of their own. -/
theorem Placeholders.Binds.part {p q : Placeholders} {values : List AttributeValue}
    {tokens : List Token} (binds : p.Binds values tokens q) :
    Part p q tokens fun kind => kind.ifValue tokens := by
  refine ⟨binds.adds, fun kind token => ?_⟩
  have shape := made_ifValue.mp binds.adds.made
  have scanned : tokens.flatMap (tokensIn kind) = kind.ifValue tokens := by
    rw [List.flatMap_congr fun token member => tokensIn_valueToken (shape token member)]
    cases kind <;> simp
  rw [← scanned, List.mem_flatMap]

namespace Operation

/-- Every path in what is named or compiled is well formed. Attributes that are named as a whole
and the keys that values are bound under may be any text. -/
def WellFormed : Operation → Prop
  | .nameText path => WellFormedPath path
  | .compileCondition query => Query.WellFormed query
  | .compileUpdate document => UpdateField.WellFormed document
  | .compileProjection fields => ∀ path ∈ fieldList fields, WellFormedPath path
  | .nameAttribute _ | .bindOperand .. | .bindDocument .. | .bindEach .. | .bindValue ..
  | .bindEmptyList => True

end Operation

namespace Outcome

/-- The texts that an outcome brings into expressions. -/
def texts : Outcome → List String
  | .path named => [named.text]
  | .token bound => [bound]
  | .tokens bound => bound
  | .condition compiled => (compiled.map Condition.text).toList
  | .update actions => [actions.text]
  | .projection fields => [fields.text]

/-- The paths in the texts of an outcome. -/
def paths : Outcome → List Path
  | .path named => [named]
  | .token _ | .tokens _ => []
  | .condition compiled => (Condition.predicatesOf compiled.toList).map Predicate.path
  | .update actions => actions.map Action.path
  | .projection fields => fields

end Outcome

/-- What an outcome brings into expressions: texts whose tokens were registered for it, and paths
that are spelled in these tokens. -/
structure Outcome.IsPart (p q : Placeholders) (outcome : Outcome)
    (tokens : TokenKind → List Token) : Prop where
  part : Part p q outcome.texts tokens
  spelled : ∀ path ∈ outcome.paths, path.IsSpelled
  own : ∀ path ∈ outcome.paths, ∀ token ∈ path.tokens .name, token ∈ tokens .name

namespace Outcome

variable {p q : Placeholders}

theorem isPart_path {path : String} (wellFormed : WellFormedPath path) :
    IsPart p (Naming.nameText path p).2 (.path (Naming.nameText path p).1)
      (Naming.nameText path p).1.tokens := by
  have spelled := Naming.nameText_spelled path p wellFormed
  have adds : Adds p (Naming.nameText path p).2 (Naming.nameText path p).1.tokens :=
    Naming.namePath_adds (.ofText path) p
  refine ⟨⟨adds, fun kind token => ?_⟩, by simpa [paths] using spelled, by simp [paths]⟩
  have scanned : tokensIn kind (Naming.nameText path p).1.text =
      (Naming.nameText path p).1.tokens kind :=
    Path.tokensIn_text spelled (List.forall_mem_map.mp (made_ifName.mp adds.made))
  simp [texts, scanned]

theorem isPart_name (name : String) (p : Placeholders) :
    IsPart p (Naming.nameAttribute name p).2 (.token (Naming.nameAttribute name p).1)
      fun kind => kind.ifName [(Naming.nameAttribute name p).1] := by
  have adds := Naming.nameAttribute_adds name p
  refine ⟨⟨adds, fun kind token => ?_⟩, by simp [paths], by simp [paths]⟩
  have scanned : tokensIn kind (Naming.nameAttribute name p).1 =
      kind.ifName [(Naming.nameAttribute name p).1] :=
    tokensIn_nameToken (Naming.nameAttribute_isNameToken name p)
  simp [texts, scanned]

theorem isPart_tokens {values : List AttributeValue} {bound : List Token}
    (binds : p.Binds values bound q) :
    IsPart p q (.tokens bound) fun kind => kind.ifValue bound :=
  ⟨binds.part, by simp [paths], by simp [paths]⟩

theorem isPart_token {value : AttributeValue} {bound : Token}
    (binds : p.Binds [value] [bound] q) :
    IsPart p q (.token bound) fun kind => kind.ifValue [bound] :=
  ⟨binds.part, by simp [paths], by simp [paths]⟩

theorem isPart_condition {query : Document} {condition : Option Condition}
    (wellFormed : Query.WellFormed query)
    (ran : (compileCondition query).runFrom p = (.ok condition, q)) :
    IsPart p q (.condition condition) (Condition.tokensOrNone condition) := by
  have threaded := (means_compileCondition ran).ran
  have spelled := questions_spelled wellFormed threaded
  refine ⟨Condition.part threaded spelled, ?_, ?_⟩
  · intro path member
    obtain ⟨predicate, inCondition, rfl⟩ := List.mem_map.mp member
    exact (Predicate.isSpelled_iff.mp (spelled predicate inCondition)).1
  · intro path member token inPath
    obtain ⟨predicate, inCondition, rfl⟩ := List.mem_map.mp member
    exact List.mem_flatMap.mpr ⟨predicate, inCondition, List.mem_append_left _ inPath⟩

theorem isPart_update {document : Document} {update : Update}
    (wellFormed : UpdateField.WellFormed document)
    (ran : (compileUpdate document).runFrom p = (.ok update, q)) :
    IsPart p q (.update update) fun kind => update.flatMap fun action => action.tokens kind := by
  have adds := (compileUpdate_threaded ran).adds compileUpdateField_adds
  have spelled := compileUpdate_spelled wellFormed ran
  refine ⟨⟨adds, Update.covers_text spelled adds.made⟩, ?_, ?_⟩
  · intro path member
    obtain ⟨action, inUpdate, rfl⟩ := List.mem_map.mp member
    exact (Action.isSpelled_iff.mp (spelled action inUpdate)).1
  · intro path member token inPath
    obtain ⟨action, inUpdate, rfl⟩ := List.mem_map.mp member
    exact List.mem_flatMap.mpr ⟨action, inUpdate, List.mem_append_left _ inPath⟩

theorem isPart_projection {paths : List String}
    (wellFormed : ∀ path ∈ paths, WellFormedPath path) :
    IsPart p (nameTexts paths p).2 (.projection (nameTexts paths p).1)
      fun kind => (nameTexts paths p).1.flatMap fun path => path.tokens kind := by
  have adds := nameTexts_adds paths p
  have spelled := nameTexts_spelled wellFormed p
  exact ⟨⟨adds, Projection.covers_text spelled adds.made⟩, spelled,
    fun path member token inPath => List.mem_flatMap.mpr ⟨path, member, inPath⟩⟩

end Outcome

namespace Operation

variable {p q : Placeholders}

theorem bindOperand_isPart {key : String} {value : Option Document} {whole : Bool}
    {tokens : ValueTokens}
    (ran : (DocQuery.bindOperand key value whole).runFrom p = (.ok tokens, q)) :
    ∃ own, Outcome.IsPart p q tokens.outcome own := by
  unfold DocQuery.bindOperand at ran
  split at ran
  · cases ran
  next items =>
    split at ran
    · cases ran
      exact ⟨_, Outcome.isPart_token (.single key _ p)⟩
    · cases ran
      exact ⟨_, Outcome.isPart_tokens (Naming.bindEach_binds key items p)⟩
  next document _ =>
    cases ran
    exact ⟨_, Outcome.isPart_token (.single key _ p)⟩

/-- A successful operation on well-formed paths brings in what it has registered. -/
theorem run_isPart {operation : Operation} {outcome : Outcome} (wellFormed : operation.WellFormed)
    (ran : operation.run.runFrom p = (.ok outcome, q)) :
    ∃ own, Outcome.IsPart p q outcome own := by
  cases operation with
  | nameText path =>
    cases ran
    exact ⟨_, Outcome.isPart_path wellFormed⟩
  | nameAttribute name =>
    cases ran
    exact ⟨_, Outcome.isPart_name name p⟩
  | bindOperand key value whole =>
    rw [run, runFrom_map_ok] at ran
    obtain ⟨tokens, ran, rfl⟩ := ran
    exact bindOperand_isPart ran
  | bindDocument key document =>
    cases ran
    exact ⟨_, Outcome.isPart_token (.single key _ p)⟩
  | bindEach key documents =>
    cases ran
    exact ⟨_, Outcome.isPart_tokens (Naming.bindEach_binds key documents p)⟩
  | bindValue key value =>
    cases ran
    exact ⟨_, Outcome.isPart_token (.single key value p)⟩
  | bindEmptyList =>
    cases ran
    exact ⟨_, Outcome.isPart_token (.emptyList (.nil _))⟩
  | compileCondition query =>
    rw [run, runFrom_map_ok] at ran
    obtain ⟨condition, ran, rfl⟩ := ran
    exact ⟨_, Outcome.isPart_condition wellFormed ran⟩
  | compileUpdate document =>
    rw [run, runFrom_map_ok] at ran
    obtain ⟨update, ran, rfl⟩ := ran
    exact ⟨_, Outcome.isPart_update wellFormed ran⟩
  | compileProjection fields =>
    cases ran
    exact ⟨_, Outcome.isPart_projection wellFormed⟩

theorem wellFormed_of_nameTexts {texts : List String} {names : KeyMap String}
    (fragments : ∀ path ∈ (nameTexts texts p).1, IsFragment names path.text) :
    ∀ text ∈ texts, WellFormedPath text := by
  induction texts generalizing p with
  | nil => exact List.forall_mem_nil _
  | cons text rest ih =>
    rw [nameTexts_cons] at fragments
    obtain ⟨first, others⟩ := List.forall_mem_cons.mp fragments
    exact List.forall_mem_cons.mpr ⟨wellFormedPath_of_isFragment first, ih others⟩

/-- If the paths of a result are fragments, what was compiled is well formed. -/
theorem wellFormed_of_isFragment {operation : Operation} {outcome : Outcome}
    {names : KeyMap String} (ran : operation.run.runFrom p = (.ok outcome, q))
    (fragments : ∀ path ∈ outcome.paths, IsFragment names path.text) : operation.WellFormed := by
  cases operation with
  | nameText path =>
    cases ran
    exact wellFormedPath_of_isFragment (fragments _ List.mem_cons_self)
  | compileCondition query =>
    rw [run, runFrom_map_ok] at ran
    obtain ⟨condition, ran, rfl⟩ := ran
    refine (means_compileCondition ran).ran.forall_inputs (fun head fragment => ?_)
      (List.forall_mem_map.mp fragments)
    obtain ⟨named, -⟩ := compileQuestion_isCompiled head
    rw [named] at fragment
    exact wellFormedPath_of_isFragment fragment
  | compileUpdate document =>
    rw [run, runFrom_map_ok] at ran
    obtain ⟨update, ran, rfl⟩ := ran
    refine (compileUpdate_threaded ran).forall_inputs (fun head fragment => ?_)
      (List.forall_mem_map.mp fragments)
    obtain ⟨named, -⟩ := compileAction_binds head
    rw [named] at fragment
    exact wellFormedPath_of_isFragment fragment
  | compileProjection fields =>
    cases ran
    exact wellFormed_of_nameTexts fragments
  | _ => trivial

end Operation

/-- What follows a bracket need be no index. It is kept all the same, be it an operator and a token
that stands for nothing, or as here in a query on one path, the end of a test and a second test. -/
theorem index_text_escapes :
    (¬ IsFragment (Naming.nameText "a[0] OR #k_b" {}).2.names
        (Naming.nameText "a[0] OR #k_b" {}).1.text ∧
      "#k_b" ∈ tokensIn .name (Naming.nameText "a[0] OR #k_b" {}).1.text ∧
      "#k_b" ∉ (Naming.nameText "a[0] OR #k_b" {}).2.names.keys) ∧
    ∃ compiled, CompiledCondition.ofDocument
        (.object [("a[0]) OR attribute_exists(#k_b", .object [("$exists", .bool true)])]) ∅ =
          .ok compiled ∧
      readCondition compiled.expression =
        some (.or (.test (.present [⟨"#k_a", "[0]"⟩])) (.test (.present [⟨"#k_b", ""⟩]))) ∧
      "#k_b" ∉ compiled.names.keys := by
  constructor
  · have text : (Naming.nameText "a[0] OR #k_b" {}).1.text = "#k_a[0] OR #k_b" := by
      decide +kernel
    refine ⟨?_, ?_, by decide +kernel⟩
    · rw [isFragment_nameText_iff]
      decide +kernel
    · rw [text]
      decide +kernel
  · have ran : CompiledCondition.ofDocument
        (.object [("a[0]) OR attribute_exists(#k_b", .object [("$exists", .bool true)])]) ∅ =
          .ok ⟨"attribute_exists(#k_a[0]) OR attribute_exists(#k_b)",
            (∅ : KeyMap String).insert "#k_a" "a", ∅⟩ := by decide +kernel
    exact ⟨_, ran, by decide +kernel, by decide +kernel⟩

/-- What a path brings into an expression, whatever was registered before. Of any path at all, the
names become registered tokens and only the indices are kept as they are written, so that the whole
is a fragment exactly if the path is well formed. The paths of a compiled expression are fragments
exactly if all paths that were compiled are well formed, and then the expression has no token that
stands for nothing. -/
theorem paths_bring_in_fragments (p : Placeholders) :
    (∀ path : String,
      let named := Naming.nameText path p
      named.1.map Step.index = (Path.ofText path).map Step.index ∧
        (∀ step ∈ named.1, IsNameToken step.name ∧ step.name ∈ named.2.names.keys) ∧
        (IsFragment named.2.names named.1.text ↔ WellFormedPath path)) ∧
    ∀ (operation : Operation) (outcome : Outcome) (q : Placeholders),
      operation.run.runFrom p = (.ok outcome, q) →
        ((∀ path ∈ outcome.paths, IsFragment q.names path.text) ↔ operation.WellFormed) ∧
        (operation.WellFormed →
          ∀ text ∈ outcome.texts, ∀ kind, ∀ token ∈ tokensIn kind text, token ∈ q.keys kind) := by
  constructor
  · intro path named
    refine ⟨Naming.namePath_indices _ p, fun step member => ?_, isFragment_nameText_iff path p⟩
    exact ⟨Naming.namePath_isNameToken _ p step member,
      Naming.namePath_registered _ p step member⟩
  · intro operation outcome q ran
    refine ⟨⟨Operation.wellFormed_of_isFragment ran, fun wellFormed path member => ?_⟩,
      fun wellFormed => ?_⟩
    · obtain ⟨own, part, spelled, inOwn⟩ := Operation.run_isPart wellFormed ran
      exact part.isFragment (spelled path member) (inOwn path member)
    · obtain ⟨own, part, -, -⟩ := Operation.run_isPart wellFormed ran
      exact part.registered

/-- A path with indices behind a name that is full of syntax. -/
def bracketedPath : String := "a) OR (b[0][1]"

def setBracketedPath : Operation :=
  .compileUpdate (.object [("$set", .object [(bracketedPath, .null)])])

theorem bracketedPath_brings_in_fragments :
    IsFragment (Naming.nameText bracketedPath {}).2.names
        (Naming.nameText bracketedPath {}).1.text ∧
      ∃ outcome q, setBracketedPath.run.runFrom {} = (.ok outcome, q) ∧
        (∀ path ∈ outcome.paths, IsFragment q.names path.text) ∧
        ∀ text ∈ outcome.texts, ∀ kind, ∀ token ∈ tokensIn kind text, token ∈ q.keys kind := by
  obtain ⟨paths, operations⟩ := paths_bring_in_fragments {}
  have wellFormed : WellFormedPath bracketedPath := by decide +kernel
  have updates : setBracketedPath.WellFormed := by
    intro field member
    obtain rfl := List.mem_singleton.mp member
    exact wellFormed
  have succeeds : (setBracketedPath.run.runFrom {}).1.isOk = true := by decide +kernel
  obtain ⟨outcome, q, ran⟩ := runFrom_ok_of_isOk succeeds
  refine ⟨(paths bracketedPath).2.2.mpr wellFormed, outcome, q, ran, ?_⟩
  obtain ⟨fragments, registered⟩ := operations setBracketedPath outcome q ran
  exact ⟨fragments.mpr updates, registered updates⟩

end DocQuery
